import LineShell.Run.Stage

/-!
# Run — pipelines and lines

The stages of a pipeline run one after the other, and each reads what the one before it wrote. A
stage that ends the session, or whose targets cannot be opened, is the last one.

- `runStages`  : the stages of a pipeline, from a given one on
- `runWith`    : a pipeline, given what becomes of substitutions
- `runWithin`  : a pipeline with room for so many levels of substitutions
- `Session.execute` : a pipeline in a session
- `Session.run`     : a line in a session
-/

namespace LineShell

/-- How a pipeline went: the status, the wish to end the session, the bytes of the last stage, and
the error sink. -/
structure Flow where
  code : Int := 0
  exit : Option Int := none
  output : Bytes := []
  err : Sink
  deriving DecidableEq, Repr

/-- Runs the stages from number `i` on, of `total` in all. -/
def runStages (sub : Substitution) (wiring : Wiring) (total : Nat) :
    Nat → Input → Sink → List Command → Exec Flow
  | _, _, err, [] => return { err }
  | i, input, err, command :: rest => do
      let out : Sink := if !rest.isEmpty || wiring.captureOutput then .memory else .stdout
      Exec.note (.stageStarting i total)
      let ended ← runStage sub wiring command input out err
      Exec.note (.stageFinished i ended.outcome)
      match ended.outcome with
      | .exited code => return { code, exit := some code, err := ended.err }
      | .aborted code => return { code, err := ended.err }
      | .finished code =>
          if rest.isEmpty then return { code, output := ended.out.held, err := ended.err }
          else runStages sub wiring total (i + 1) (.piped ended.out.held) ended.err rest

/-- Runs a pipeline, given what becomes of the substitutions in it. -/
def runWith (sub : Substitution) (p : Pipeline) (wiring : Wiring) : Exec Result := do
  let err : Sink := if wiring.captureErrors then .memory else .stderr
  let input : Input := if wiring.emptyInput then .empty else .inherited
  let flow ← runStages sub wiring p.length 0 input err p
  return {
    stdout := if wiring.captureOutput then Utf8.decodeLossy flow.output else ""
    stderr := if wiring.captureErrors then Utf8.decodeLossy flow.err.held else ""
    code := flow.code
    exit := flow.exit }

/-- Runs a pipeline in which substitutions may be nested to so many more levels. -/
def runWithin : Nat → Pipeline → Wiring → Exec Result
  | 0 => runWith refuse
  | levels + 1 => runWith (nest (runWithin levels))

namespace Session

/-- Runs a pipeline in a session. -/
def execute (p : Pipeline) (wiring : Wiring) : Exec Result := do
  runWithin (← get).room p wiring

/-- Runs a line in a session. -/
def run (line : String) (wiring : Wiring) : Exec Result := do
  Exec.note (.executingLine ((← get).policy.line line))
  for step in Pipeline.trace line do
    Exec.note (.reading step)
  match Pipeline.parse line with
  | .error e => throw (.malformed e)
  | .ok p => execute p wiring

end Session

end LineShell
