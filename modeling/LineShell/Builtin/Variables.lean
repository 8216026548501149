import LineShell.Builtin
import LineShell.Identifier
import LineShell.Text.Color

/-!
# Variables — `export`, `unset` and `env`

`export` and `unset` treat their arguments from left to right. An argument whose name is no
identifier is reported and passed over, and the status tells that there was one.
-/

namespace LineShell
namespace Builtin

/-! ## Changing -/

/-- The name in an argument of `export`, and the value if it gives one. -/
def exportOf (arg : String) : String × Option String :=
  match Text.cut? '=' arg.toList with
  | some (name, value) => (String.ofList (Text.trim name), some (String.ofList value))
  | none => (String.ofList (Text.trim arg.toList), none)

/-- `export NAME[=VALUE]...` sets and marks variables. -/
def exportAll : List String → Action Completion
  | [] => return .success
  | arg :: rest => do
      let (name, value) := exportOf arg
      if isIdentifier name then
        Action.modifyEnv (·.exportName name value)
        exportAll rest
      else
        Action.complain s!"export: not a valid identifier: {arg}"
        let _ ← exportAll rest
        return .failure

/-- `unset NAME...` removes variables. -/
def unsetAll : List String → Action Completion
  | [] => return .success
  | arg :: rest => do
      let name := String.ofList (Text.trim arg.toList)
      if isIdentifier name then
        let s ← Action.scene
        Action.modifyEnv (·.unset name)
        if s.env.contains name then Action.note (.unsetVariable name)
        unsetAll rest
      else
        Action.complain s!"unset: not a valid identifier: {arg}"
        let _ ← unsetAll rest
        return .failure

/-! ## Showing -/

/-- The line of `env` for a variable. Colors tell exported variables and those of a dotenv file. -/
def envLine (colors : Bool) (e : Environment) (name value : String) : String :=
  let line := name ++ "=" ++ value
  if colors && e.isExported name then Text.paint .green line
  else if colors && e.isLoaded name then Text.paint .brightGreen line
  else line

/-- `env` prints all variables in the order of their names. -/
def env : Builtin := fun _ _ => do
  let d ← get
  let colors := d.out.isTerminal d.scene.host && d.scene.host.colors
  let lines := d.scene.env.pairs.map fun v => envLine colors d.scene.env v.1 v.2 ++ "\n"
  Action.print (Utf8.encode (String.join lines))
  return .success

end Builtin
end LineShell
