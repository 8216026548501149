import LineShell.Builtin.Directory
import LineShell.Builtin.Echo
import LineShell.Builtin.Files
import LineShell.Builtin.Flow
import LineShell.Builtin.List
import LineShell.Builtin.Variables

/-!
# Table — builtins by name
-/

namespace LineShell
namespace Builtin

/-- Builtins by name; the first of a name counts. -/
abbrev Table := List (String × Builtin)

def standard : Table :=
  [("cd", cd), ("pwd", pwd), ("ls", ls), ("mkdir", mkdir), ("rm", rm), ("touch", touch),
    ("echo", echo), ("export", fun args _ => exportAll args),
    ("unset", fun args _ => unsetAll args), ("env", env), ("exit", exit), ("true", succeed),
    ("false", fail)]

def Table.register (t : Table) (name : String) (b : Builtin) : Table :=
  (name, b) :: t

end Builtin
end LineShell
