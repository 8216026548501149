import LineShell.Builtin.Options
import LineShell.Listing.Tree

/-!
# List — `ls`

`ls` prints the listing of its targets, or of the working directory, and then what it has to
complain about.
-/

namespace LineShell
namespace Builtin

/-- `ls`, given what it sees of a disk. -/
def lsThrough (view : Disk → Listing.View) : Builtin := fun args _ => do
  let request := Listing.Request.read {} args
  if !request.unknown.isEmpty then Action.refuseOptions "ls" request.unknown
  else
    let d ← get
    let colors := d.out.isTerminal d.scene.host && d.scene.host.colors
    let targets := if request.targets.isEmpty then ["."] else request.targets
    let disk := d.scene.host.disk
    let frame : Listing.Frame := ⟨request.settings, view disk, colors, disk.depth⟩
    let report := Listing.report frame (1 < targets.length)
      (targets.map fun raw => (raw, d.scene.pathOf raw))
    Action.print (Utf8.encode report.out)
    if report.complaints.isEmpty then return .success
    else
      Action.report (Utf8.encode (String.join (report.complaints.map (· ++ "\n"))))
      return .failure

/-- `ls [-alhRStF] [--all] [PATH]...` lists files and directories. -/
def ls : Builtin := lsThrough Disk.view

end Builtin
end LineShell
