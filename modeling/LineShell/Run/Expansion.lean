import LineShell.Session

/-!
# Expansion — from words to texts

A word becomes one text, whatever its parts stand for. What a substitution stands for is left to a
parameter, so that the rules here do not depend on how deep substitutions may be nested.

- `Substitution` : how a pipeline inside a word becomes text
- `refuse`, `nest` : the two ways, without and with room for one more level
- `expandWord`, `expandStage` : the texts of a word and of a stage
-/

namespace LineShell

/-- What becomes of a pipeline inside a word: its text, and the error sink after that. -/
abbrev Substitution := Pipeline → Wiring → Sink → Exec (String × Sink)

/-- A substitution for which there is no room: it is reported, it stands for nothing, and the
command that it belongs to must not run. -/
def refuse : Substitution := fun _ _ err => do
  let s ← get
  let e := Error.overLimit (.substitutionDepth s.limits.maxDepth)
  let err ← Exec.report err s!"minsh: {e.message}"
  modify fun s => { s with expansionFailed := true }
  return ("", err)

def dropLineEnds (s : String) : String :=
  String.ofList (Text.dropEndWhile (fun c => c == '\n' || c == '\r') s.toList)

/-- Writes what a nested pipeline left on its error stream, if anything. -/
def passOn (err : Sink) (text : String) : Exec Sink :=
  if text.isEmpty then pure err else Exec.write err (Utf8.encode text)

/-- A substitution that runs its pipeline one level deeper. It stands for the output, less the line
ends at its end. -/
def nest (run : Pipeline → Wiring → Exec Result) : Substitution := fun p wiring err => do
  modify Session.enter
  let result ← Exec.observe (run p wiring.nested)
  modify Session.leave
  match result with
  | .error e => throw e
  | .ok result =>
      let err ← passOn err result.stderr
      return (dropLineEnds result.stdout, err)

/-- The text of a part. -/
def expandPart (sub : Substitution) (wiring : Wiring) (err : Sink) : Part → Exec (String × Sink)
  | .text s => return (s, err)
  | .var name => do
      let s ← get
      let value := (s.scene.env.get? name).getD ""
      Exec.note (.expandedVariable name (s.policy.redactVariable name value))
      return (value, err)
  | .substitution p => sub p wiring err

/-- The text of a word. -/
def expandWord (sub : Substitution) (wiring : Wiring) (err : Sink) : Word → Exec (String × Sink)
  | [] => return ("", err)
  | part :: rest => do
      let (first, err) ← expandPart sub wiring err part
      let (tail, err) ← expandWord sub wiring err rest
      return (first ++ tail, err)

/-- The texts of words, from left to right. -/
def expandWords (sub : Substitution) (wiring : Wiring) (err : Sink) :
    List Word → Exec (List String × Sink)
  | [] => return ([], err)
  | word :: rest => do
      let (first, err) ← expandWord sub wiring err word
      let (tail, err) ← expandWords sub wiring err rest
      return (first :: tail, err)

/-- Redirections with the texts of their targets, in role order. -/
def expandTargets (sub : Substitution) (wiring : Wiring) (err : Sink) :
    List (Redirection Word) → Exec (List (Redirection String) × Sink)
  | [] => return ([], err)
  | r :: rest => do
      let (target, err) ← expandWord sub wiring err r.target
      let (tail, err) ← expandTargets sub wiring err rest
      return (⟨r.role, r.append, target⟩ :: tail, err)

/-- A stage whose words have become texts: the name first, then the arguments, then the targets. -/
def expandStage (sub : Substitution) (wiring : Wiring) (err : Sink) (command : Command) :
    Exec (Stage String × Sink) := do
  let (name, err) ← expandWord sub wiring err command.name
  let (args, err) ← expandWords sub wiring err command.args
  let (redirections, err) ← expandTargets sub wiring err command.redirections
  return (⟨name, args, redirections⟩, err)

end LineShell
