import LineShell.Builtin

/-!
# Directory — the working directory

`cd` changes the working directory to a path folded as text, provided that it leads to a directory.
`pwd` prints it.
-/

namespace LineShell
namespace Builtin

/-- What `cd` says about a directory that it cannot change to. -/
def cdMessage (shown : String) : Fault → String
  | .notFound => s!"cd: no such file or directory: {shown}"
  | .os 1 | .denied => s!"cd: permission denied: {shown}"
  | .notDirectory => s!"cd: not a directory: {shown}"
  | fault => s!"cd: {shown}: {fault.describe}"

/-- Changes the working directory to the one that a path leads to. -/
def cdTo (shown path : String) : Action Completion := do
  let s ← Action.scene
  match s.host.disk.stat path with
  | .ok e =>
      if e.isDirectory then
        Action.note (.changingDirectory s.cwd path)
        modify fun d => { d with scene := { d.scene with cwd := path } }
        return .success
      else
        Action.complain (cdMessage shown .notDirectory)
        return .failure
  | .error fault =>
      Action.complain (cdMessage shown fault)
      return .failure

/-- `cd [DIR]` goes to `DIR`, or to the home directory. -/
def cd : Builtin := fun args _ => do
  let s ← Action.scene
  match args.head?, s.home with
  | some raw, _ => cdTo raw (s.pathOf raw)
  | none, some home => cdTo home (Path.resolve s.cwd home)
  | none, none =>
      Action.complain "cd: HOME not set"
      return .failure

/-- `pwd` prints the working directory. -/
def pwd : Builtin := fun _ _ => do
  let s ← Action.scene
  Action.print (Utf8.encode (s.cwd ++ "\n"))
  return .success

end Builtin
end LineShell
