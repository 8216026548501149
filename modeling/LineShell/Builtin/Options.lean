import LineShell.Builtin
import LineShell.Options

/-!
# Options — flags that a builtin does not know
-/

namespace LineShell

def Action.refuseOptions (command : String) (unknown : List String) : Action Completion := do
  let listed := " ".intercalate unknown
  complain s!"{command}: invalid option(s): {listed}"
  return .usage

end LineShell
