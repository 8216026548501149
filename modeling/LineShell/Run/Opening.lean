import LineShell.Session

/-!
# Opening — the files of a stage

The targets of a stage are opened before it runs, in role order. The first that cannot be opened
stops the rest. Numbered descriptors are opened and then left alone.
-/

namespace LineShell

/-- The files that a stage is connected to. -/
structure StageFiles where
  stdin : Option Handle := none
  stdout : Option Handle := none
  stderr : Option Handle := none
  deriving DecidableEq, Repr

namespace StageFiles

def connect (f : StageFiles) (handle : Handle) : Role → StageFiles
  | .stdin => { f with stdin := some handle }
  | .stdout => { f with stdout := some handle }
  | .stderr => { f with stderr := some handle }
  | .descriptor _ => f

end StageFiles

/-- Opens a path for a role: input for reading, everything else for writing. -/
def Disk.openFor (d : Disk) (role : Role) (append : Bool) (path : String) :
    Except Fault (Disk × Handle) :=
  match role with
  | .stdin => (d.openInput path).map fun handle => (d, handle)
  | _ => d.openOutput append path

/-- A target that could not be opened, and why. -/
structure OpenFailure where
  target : String
  fault : Fault
  deriving DecidableEq, Repr

/-- Opens the target of a redirection. -/
def openOne (files : StageFiles) (r : Redirection String) :
    Exec (Except OpenFailure StageFiles) := do
  let s ← get
  let path := Path.resolve s.scene.cwd r.target
  match s.scene.host.disk.openFor r.role r.append path with
  | .error fault => return .error ⟨r.target, fault⟩
  | .ok (disk, handle) =>
      set (s.withHost { s.scene.host with disk })
      Exec.note (.openedRedirection r.role path r.append)
      match r.role with
      | .descriptor digits => Exec.note (.descriptorNotConnected digits)
      | _ => pure ()
      return .ok (files.connect handle r.role)

/-- Opens the targets of redirections in order, up to the first that fails. -/
def openAll (files : StageFiles) : List (Redirection String) → Exec (Except OpenFailure StageFiles)
  | [] => return .ok files
  | r :: rest => do
      match ← openOne files r with
      | .ok files => openAll files rest
      | .error failure => return .error failure

end LineShell
