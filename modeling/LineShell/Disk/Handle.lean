import LineShell.Disk.Change

/-!
# Handle — open files

A handle is an open file: the route it was opened at, the position of the next byte, and whether
writing goes to the end. A file that is removed while it is open takes the bytes written to it
along.
-/

namespace LineShell

/-- An open file. -/
structure Handle where
  route : Route
  position : Nat := 0
  append : Bool := false
  deriving DecidableEq, Repr

namespace Disk

/-! ## Opening -/

/-- Opens a path for reading. A directory can be opened, but not read. -/
def openInput (d : Disk) (path : String) : Except Fault Handle := do
  let (route, _) ← d.find .entry path
  return { route }

def empty (d : Disk) (route : Route) : Disk :=
  match d.get? route with
  | some ⟨.file _, mode, modified⟩ => (d.set route ⟨.file {}, mode, modified⟩).stamp route
  | _ => d

/-- Opens a path for writing. A missing file is made; an existing one is emptied unless writing goes
to its end. -/
def openOutput (d : Disk) (append : Bool) (path : String) : Except Fault (Disk × Handle) := do
  match ← d.locate .file path with
  | .vacant route => return (d.add route (.file {}) fileMode, { route, append })
  | .entry route e =>
      if e.isDirectory then throw .isDirectory
      else return (if append then d else d.empty route, { route, append })

/-! ## Reading and writing -/

/-- The bytes from the position of a handle to the end. A file may have a flaw, and not all that can
be opened has an end. -/
def readAll (d : Disk) (h : Handle) : Except Fault Bytes :=
  match d.get? h.route with
  | some ⟨.directory, _, _⟩ => .error .isDirectory
  | some ⟨.file content, _, _⟩ =>
      match d.medium.flaw h.route with
      | some fault => .error fault
      | none => .ok (content.toBytes.drop h.position)
  | some ⟨.device .full, _, _⟩ => .error .outOfMemory
  | _ => .ok []

/-- Writes bytes at the position of a handle, or at the end. Writing no bytes always works. -/
def write (d : Disk) (h : Handle) (bs : Bytes) : Except Fault (Disk × Handle) :=
  if bs.isEmpty then .ok (d, h)
  else
    match d.get? h.route with
    | some ⟨.file content, mode, modified⟩ =>
        let position := if h.append then content.size else h.position
        let written := content.writeAt position bs
        .ok ((d.set h.route ⟨.file written, mode, modified⟩).stamp h.route,
          { h with position := position + bs.length })
    | some ⟨.device .full, _, _⟩ => .error .noSpace
    | _ => .ok (d, { h with position := h.position + bs.length })

def read (d : Disk) (path : String) : Except Fault Bytes := do
  d.readAll (← d.openInput path)

/-- Makes a file that is missing, and gives an existing file or directory the present moment. -/
def touch (d : Disk) (path : String) : Except Fault Disk := do
  if d.isDirectory path then
    let (route, _) ← d.find .entry path
    return d.stamp route
  else
    let (opened, h) ← d.openOutput true path
    return opened.stamp h.route

end Disk

end LineShell
