import LineShell.Builtin.Options

/-!
# Files — making and removing files

`mkdir`, `rm` and `touch` refuse to start when a flag is unknown or when there is no operand.
Otherwise they treat their operands one after the other, and report each that fails without
stopping.
-/

namespace LineShell
namespace Builtin

/-! ## Operands -/

/-- Treats operands in order. `act` changes the disk at a path; a fault is reported as `message`
words it. What `act` did before a fault stays. -/
def forOperands (act : Disk → String → Disk × Except Fault Unit)
    (message : String → Fault → String) :
    List String → Action Completion
  | [] => return .success
  | operand :: rest => do
      let s ← Action.scene
      let (disk, result) := act s.host.disk (s.pathOf operand)
      Action.setDisk disk
      match result with
      | .ok () => forOperands act message rest
      | .error fault =>
          Action.complain (message operand fault)
          let _ ← forOperands act message rest
          return .failure

def whole (result : Except Fault Disk) (d : Disk) : Disk × Except Fault Unit :=
  match result with
  | .ok disk => (disk, .ok ())
  | .error fault => (d, .error fault)

/-- Runs a command on its operands once its words are in order. -/
def withOptions (command missing : String) (known : String → Bool) (args : List String)
    (run : Options → Action Completion) : Action Completion :=
  let o := Options.read known args
  if !o.unknown.isEmpty then Action.refuseOptions command o.unknown
  else if o.operands.isEmpty then do
    Action.complain s!"{command}: {missing}"
    return .failure
  else run o

/-! ## Commands -/

/-- `mkdir [-p] DIR...` makes directories. With `-p` it makes those above as well, and a directory
that is already there is no failure. -/
def mkdir : Builtin := fun args _ =>
  let parents := ["-p", "--parents"]
  withOptions "mkdir" "missing operand" parents.contains args fun o =>
    let act := fun (d : Disk) path =>
      if o.flags.isEmpty then whole (d.makeDirectory path) d else d.makeDirectories path
    forOperands act
      (fun dir fault => s!"mkdir: cannot create directory '{dir}': {fault.describe}") o.operands

/-- The flags of `rm`. -/
def recursiveFlags : List String := ["-r", "-R", "--recursive"]
def forceFlags : List String := ["-f", "--force"]

/-- Removes what a path names. With `force` it is no failure if nothing is there. -/
def removeOne (recursive force : Bool) (d : Disk) (path : String) : Disk × Except Fault Unit :=
  match d.remove recursive path with
  | (disk, .error .notFound) => (disk, if force then .ok () else .error .notFound)
  | removed => removed

/-- `rm [-rRf] FILE...` removes files, links and, with `-r`, directories. -/
def rm : Builtin := fun args _ =>
  withOptions "rm" "missing operand" (recursiveFlags ++ forceFlags).contains args fun o =>
    let recursive := o.flags.any recursiveFlags.contains
    let force := o.flags.any forceFlags.contains
    forOperands (removeOne recursive force)
      (fun target fault => s!"rm: cannot remove '{target}': {fault.describe}") o.operands

/-- `touch FILE...` makes files that are missing and renews the time of the others. -/
def touch : Builtin := fun args _ =>
  withOptions "touch" "missing file operand" (fun _ => false) args fun o =>
    forOperands (fun d path => whole (d.touch path) d)
      (fun file fault => s!"touch: cannot touch '{file}': {fault.describe}") o.operands

end Builtin
end LineShell
