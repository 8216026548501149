import LineShell.CommandLine.Invocation
import LineShell.Proofs.DataFlow
import LineShell.Proofs.Unfailing
import LineShell.Proofs.Unread

/-!
# LineByLine — the lines that a script runs

The lines of a script run one after the other, each in the session that the one before it left.
Nothing but a line that asks the session to end, or the program breaking down, keeps the next one
from running.

* `Execution` — a line that was run, with what it found and what it left behind;
* `Execution.Exits`, `Execution.Breaks`, `Execution.status` — how a line can end;
* `executions` — the lines that a script runs;
* `Account`, `account_executions` — which lines these are, and what the script comes to;
* `not_breaks_of_mem_executions` — the program does not break down if its error output takes every
  write;
* `executions_withInput`, `runScript_withInput` — lines that run nothing but builtins run the same
  whatever is left on the input of the process.
-/

namespace LineShell
namespace CommandLine

/-! ## One line -/

/-- A line that was run: the session that it found, what it left behind, and the session after
it. -/
structure Execution where
  line : String
  before : Session
  step : Step
  after : Session

namespace Execution

variable (x : Execution)

def Ran : Prop :=
  runLine x.before x.line = (x.step, x.after)

def answer : Except Error Result :=
  (runOn (Session.run x.line .terminal) x.before).1

/-- The status of the line: that of its last command, two if it cannot be read, and one for any
other error. -/
def status : Int :=
  match Pipeline.parse x.line, x.answer with
  | .error _, _ => 2
  | .ok _, .error _ => 1
  | .ok _, .ok result => result.code

/-- A stage of the line ran `exit`, and asked for the status `c`. An `exit` inside a substitution
only ends the pipeline there. -/
def Exits (c : Int) : Prop :=
  ∃ p v args stdin answer out ended, Pipeline.parse x.line = .ok p ∧
    v ∈ visits (substitutionWithin x.before.room) .terminal p (x.before.recording x.line) ∧
    v.result = .ok ended ∧
    v.Meets (substitutionWithin x.before.room) .terminal (.builtin "exit" args stdin answer out)
      ended ∧
    c = (args.head?.map Builtin.exitStatus).getD 0

/-- The line ended in an error that cannot be written to the error output of the process. -/
def Breaks : Prop :=
  ∃ e t fault, runOn (Session.run x.line .terminal) x.before = (.error e, t) ∧
    (writeError t.scene.host (complaintOf e)).2 = .error fault

/-- All commands of the line, at any level, are builtins that every session starts with. -/
def RunsBuiltins : Prop :=
  ∀ rest w v, x.before.Reaches x.line .terminal rest w v →
    v.RunsStandard (substitutionWithin rest) w

/-- The same with something else left on the input of the process. -/
def withInput (input : Bytes) : Execution :=
  { x with before := x.before.withInput input, after := x.after.withInput input }

end Execution

section Lines

variable {s t : Session} {line : String} {e : Error}

/-- A line that ends leaves its code, or the code it exits with. -/
theorem runLine_of_ok {result : Result}
    (h : runOn (Session.run line .terminal) s = (.ok result, t)) :
    runLine s line =
      (match result.exit with
        | some c => .last c
        | none => .next result.code, t) := by
  unfold runOn at h
  rw [runLine, h]
  dsimp only
  cases result.exit <;> rfl

/-- To record an error is no reason to write anything. -/
theorem noteFailure_host (s : Session) (e : Error) :
    (noteFailure s e).scene.host = s.scene.host := by
  cases e <;> rfl

/-- A line that fails is complained of, and the session goes on or breaks. -/
theorem runLine_of_error (h : runOn (Session.run line .terminal) s = (.error e, t)) :
    runLine s line =
      (match (writeError t.scene.host (complaintOf e)).2 with
        | .ok () => .next (statusOf e)
        | .error _ => .last brokenStatus, warn (noteFailure t e) (complaintOf e)) := by
  unfold runOn at h
  rw [runLine, h]
  dsimp only
  rw [noteFailure_host]
  cases (writeError t.scene.host (complaintOf e)).2 <;> rfl

/-- Only the stream can make a write fail. -/
theorem write_eq_error {sink : Sink} {bs : Bytes}
    (h : runOn (Exec.write sink bs) s = (.error e, t)) :
    ∃ fault, e = .stream fault := by
  rw [runOn_write] at h
  split at h
  · cases h
  · cases h
    exact ⟨_, rfl⟩

/-- Once a line can be read, only streams can end it with an error. -/
theorem runWithin_eq_error {levels : Nat} {p : Pipeline} {wiring : Wiring}
    (h : runOn (runWithin levels p wiring) s = (.error e, t)) : ∃ fault, e = .stream fault := by
  rcases exists_occurs_of_error h with ⟨rest, w, v, -, -, -, hcause⟩
  rcases hcause with ⟨fault, -, he⟩ | hunheard | hbreaks
  · exact ⟨fault, he⟩
  · rcases hunheard with ⟨_, _, _, _, _, -, hreport⟩ | ⟨_, _, _, _, _, _, _, _, _, -, -, hreport⟩
    · exact write_eq_error hreport
    · exact write_eq_error hreport
  · cases rest with
    | succ rest =>
        rcases hbreaks with ⟨_, _, _, _, _, _, -, -, hwrite⟩
        exact write_eq_error hwrite
    | zero =>
        rcases hbreaks with ⟨q, err, u, -, hrefuse⟩
        rw [refuse, runOn_bind_of_ok (runOn_get u)] at hrefuse
        rcases runOn_bind_eq_error_iff.1 hrefuse with hreport | ⟨_, _, -, hrest⟩
        · exact write_eq_error hreport
        · cases hrest

/-- A line that has a result is a pipeline. -/
theorem exists_of_run_eq_ok {wiring : Wiring} {result : Result}
    (h : runOn (Session.run line wiring) s = (.ok result, t)) :
    ∃ p, Pipeline.parse line = .ok p ∧
      runOn (runWith (substitutionWithin s.room) p wiring) (s.recording line) =
        (.ok result, t) := by
  cases hparse : Pipeline.parse line with
  | error e =>
      rw [runOn_run_of_malformed hparse] at h
      cases h
  | ok p =>
      rw [runOn_run_eq_runWithin hparse, runWithin_eq_runWith] at h
      exact ⟨p, rfl, h⟩

end Lines

namespace Execution

variable {x : Execution} {e : Error} {t : Session}

theorem status_of_error (h : runOn (Session.run x.line .terminal) x.before = (.error e, t)) :
    x.status = statusOf e := by
  have hanswer : x.answer = .error e := congrArg Prod.fst h
  cases hparse : Pipeline.parse x.line with
  | error malformed =>
      rw [runOn_run_of_malformed hparse] at h
      cases h
      rw [status, hparse]
      rfl
  | ok p =>
      rw [runOn_run_eq_runWithin hparse] at h
      rcases runWithin_eq_error h with ⟨fault, rfl⟩
      rw [status, hparse, hanswer]
      rfl

theorem status_of_ok {result : Result}
    (h : runOn (Session.run x.line .terminal) x.before = (.ok result, t)) :
    x.status = result.code := by
  have hanswer : x.answer = .ok result := congrArg Prod.fst h
  rcases exists_of_run_eq_ok h with ⟨p, hparse, -⟩
  rw [status, hparse, hanswer]

/-- The stage that runs `exit` is the last of its line, and what it asks for is the status of the
line. -/
theorem exits_iff (htable : x.before.table = Builtin.standard) {c : Int} :
    x.Exits c ↔ ∃ result t, runOn (Session.run x.line .terminal) x.before = (.ok result, t) ∧
      result.exit = some c := by
  have hsub := substitutionWithin_keepsFrame x.before.room
  have htables : ∀ p v, v ∈
    visits (substitutionWithin x.before.room) .terminal p (x.before.recording x.line) →
      v.before.table = Builtin.standard := by
    intro p v hv
    exact (Session.table_eq_of_frame_eq (visitsFrom_frame hsub hv)).trans htable
  constructor
  · rintro ⟨p, v, args, stdin, answer, out, ended, hparse, hv, hr, hmeets, hc⟩
    have hasked : answer = .ok (.exit c) := (hmeets.exit_iff hsub (htables p v hv) c).2 ⟨rfl, hc⟩
    rw [hasked] at hmeets
    have hexits : v.Exits (substitutionWithin x.before.room) .terminal c :=
      ⟨_, args, stdin, out, ended, hr, hmeets⟩
    have houtcome := (LineShell.exits_iff (visitsFrom_runs hv) hr).1 hexits
    -- It does not pass, so no other stage follows it, and it decides how the line ends.
    have hstop : ∀ ended, ¬ v.Passed ended := by
      rintro ended' ⟨hr', hcontinues⟩
      rw [hr] at hr'
      cases hr'
      cases hended : ended.outcome <;> simp_all [Outcome.exit?, Outcome.Continues]
    rcases visits_eq_append hv hstop with ⟨front, hvs⟩
    rcases runWith_ended hvs hr with ⟨result, hrun, -, hexit, -⟩
    have hasks : result.exit = some c := hexit.trans houtcome
    rw [runOn_run_eq_runWithin hparse, runWithin_eq_runWith]
    exact ⟨result, _, hrun, hasks⟩
  · rintro ⟨result, t, hrun, hexit⟩
    rcases exists_of_run_eq_ok hrun with ⟨p, hparse, hwith⟩
    rcases (runWith_exit_iff hwith).1.1 hexit with ⟨v, hv, name, args, stdin, out, ended, hr,
      hmeets⟩
    rcases (hmeets.exit_iff hsub (htables p v hv) c).1 rfl with ⟨rfl, hc⟩
    exact ⟨p, v, args, stdin, _, out, ended, hparse, hv, hr, hmeets, hc⟩

variable (hran : x.Ran) (htable : x.before.table = Builtin.standard)
include hran

/-- A line that breaks the session is the last one. -/
theorem step_of_breaks (h : x.Breaks) : x.step = .last brokenStatus := by
  rcases h with ⟨e, t, fault, hrun, hfault⟩
  have hstep := congrArg Prod.fst (hran.symm.trans (runLine_of_error hrun))
  simpa [hfault] using hstep

include htable

/-- A line that exits is the last one, with its code. -/
theorem step_of_exits {c : Int} (h : x.Exits c) : x.step = .last c ∧ x.status = c := by
  rcases (exits_iff htable).1 h with ⟨result, t, hrun, hexit⟩
  rcases exists_of_run_eq_ok hrun with ⟨p, -, hwith⟩
  have hstep := congrArg Prod.fst (hran.symm.trans (runLine_of_ok hrun))
  constructor
  · simpa [hexit] using hstep
  · calc
      x.status = result.code := status_of_ok hrun
      _ = c := (runWith_exit_iff hwith).2 hexit

/-- Every other line lets the next one run. -/
theorem step_of_goes_on (hexits : ∀ c, ¬ x.Exits c) (hbreaks : ¬ x.Breaks) :
    x.step = .next x.status := by
  rcases hrun : runOn (Session.run x.line .terminal) x.before with ⟨e | result, t⟩
  · have hstep := congrArg Prod.fst (hran.symm.trans (runLine_of_error hrun))
    rw [status_of_error hrun]
    cases hsaid : (writeError t.scene.host (complaintOf e)).2 with
    | error fault => exact (hbreaks ⟨e, t, fault, hrun, hsaid⟩).elim
    | ok done => simpa [hsaid] using hstep
  · have hstep := congrArg Prod.fst (hran.symm.trans (runLine_of_ok hrun))
    rw [status_of_ok hrun]
    cases hexit : result.exit with
    | none => simpa [hexit] using hstep
    | some c => exact (hexits c ((exits_iff htable).2 ⟨result, t, hrun, hexit⟩)).elim

end Execution

/-! ## Scripts -/

/-- The lines that a script runs, up to one that lets no other run. -/
def executions (s : Session) : List String → List Execution
  | [] => []
  | line :: rest =>
      if isPassedOver line then executions s rest
      else
        match runLine s line with
        | (.next status, t) => ⟨line, s, .next status, t⟩ :: executions t rest
        | (.last status, t) => [⟨line, s, .last status, t⟩]

/-- The lines of a script that are neither blank nor comments. -/
def linesToRun (lines : List String) : List String :=
  lines.filter fun line => !isPassedOver line

def Step.status : Step → Int
  | .next status | .last status => status

/-- What a script comes to that ran the lines `xs` from the session `s` on. -/
def outcomeOf (s : Session) (status : Int) (xs : List Execution) : Int × Session :=
  match xs.getLast? with
  | none => (status, s)
  | some x => (x.step.status, x.after)

/-- An account of a script that ended with the status and the session of `r`: from `s` on it ran the
lines `xs`, in their order and each in the session that the one before it left. A line that runs
`exit` is the last, and so is one at which the program breaks down. If there is none then no line
was left out. -/
structure Account (s : Session) (lines : List String) (xs : List Execution) (r : Int × Session) :
    Prop where
  ran : ∀ x ∈ xs, x.Ran
  in_order : xs.map Execution.line <+: linesToRun lines
  first : ∀ x, xs[0]? = some x → x.before = s
  next : ∀ k x y, xs[k]? = some x → xs[k + 1]? = some y → y.before = x.after
  complete : (∀ x ∈ xs, (∀ c, ¬ x.Exits c) ∧ ¬ x.Breaks) → xs.map Execution.line = linesToRun lines
  exit : ∀ k x c, xs[k]? = some x → x.Exits c → k + 1 = xs.length ∧ r.1 = c
  breaks : ∀ k x, xs[k]? = some x → x.Breaks → k + 1 = xs.length ∧ r.1 = brokenStatus
  status : (∀ x ∈ xs, ¬ x.Breaks) → r.1 = (xs.getLast?.map Execution.status).getD 0
  session : r.2 = (xs.getLast?.map Execution.after).getD s

section Scripts

variable {s : Session} {lines : List String}

/-- The outcome of executions is that of the later ones, from where the first left off. -/
theorem outcomeOf_cons (s : Session) (status : Int) (x : Execution) (xs : List Execution) :
    outcomeOf s status (x :: xs) = outcomeOf x.after x.step.status xs := by
  cases xs with
  | nil => rfl
  | cons y ys =>
      rw [outcomeOf, outcomeOf, List.getLast?_cons_cons]
      cases hlast : (y :: ys).getLast? with
      | none => simp at hlast
      | some z => rfl

/-- A script comes to what its executions come to. -/
theorem runScript_eq (s : Session) (status : Int) (lines : List String) :
    runScript s status lines = outcomeOf s status (executions s lines) := by
  -- The status is carried along, but a line that is run replaces it by its own.
  fun_induction executions s lines generalizing status with
  | case1 s => rfl
  | case2 s line rest hpassed ih =>
      rw [runScript, if_pos hpassed]
      exact ih status
  | case3 s line rest hpassed status' t hrun ih =>
      rw [runScript, if_neg hpassed, hrun, outcomeOf_cons]
      exact ih status'
  | case4 s line rest hpassed status' t hrun =>
      rw [runScript, if_neg hpassed, hrun]
      rfl

/-- Every execution of a script ran. -/
theorem ran_of_mem_executions {x : Execution} (hx : x ∈ executions s lines) : x.Ran := by
  fun_induction executions s lines with
  | case1 s => cases hx
  | case2 s line rest hpassed ih => exact ih hx
  | case3 s line rest hpassed status t hrun ih =>
      rcases List.mem_cons.1 hx with rfl | hrest
      · exact hrun
      · exact ih hrest
  | case4 s line rest hpassed status t hrun =>
      rw [List.mem_singleton.1 hx]
      exact hrun

/-- A line that is not passed over is to be run. -/
theorem linesToRun_cons {line : String} (rest : List String) (h : ¬ isPassedOver line = true) :
    linesToRun (line :: rest) = line :: linesToRun rest := by
  simp [linesToRun, h]

/-- The lines that are run are the first ones of a script, and all of them unless one lets no other
run. -/
theorem exists_linesToRun (s : Session) (lines : List String) :
    ∃ rest, linesToRun lines = (executions s lines).map Execution.line ++ rest ∧
      ((∀ x ∈ executions s lines, ∃ n, x.step = .next n) → rest = []) := by
  -- By the lines, as they are run: only behind a last one something can be left.
  fun_induction executions s lines with
  | case1 s => exact ⟨[], rfl, fun _ => rfl⟩
  | case2 s line rest hpassed ih =>
      have hsame : linesToRun (line :: rest) = linesToRun rest := by simp [linesToRun, hpassed]
      rw [hsame]
      exact ih
  | case3 s line rest hpassed status t hrun ih =>
      rcases ih with ⟨left, hlines, hall⟩
      refine ⟨left, ?_, ?_⟩
      · rw [linesToRun_cons rest hpassed, hlines]
        rfl
      · intro hnext
        apply hall
        intro x hx
        exact hnext x (List.mem_cons_of_mem _ hx)
  | case4 s line rest hpassed status t hrun =>
      refine ⟨linesToRun rest, linesToRun_cons rest hpassed, ?_⟩
      intro hnext
      rcases hnext _ List.mem_cons_self with ⟨n, hstep⟩
      cases hstep

/-- The first execution starts from the session at hand. -/
theorem before_of_executions_head {x : Execution} (hx : (executions s lines)[0]? = some x) :
    x.before = s := by
  fun_induction executions s lines with
  | case1 s => cases hx
  | case2 s line rest hpassed ih => exact ih hx
  | case3 s line rest hpassed status t hrun ih =>
      cases hx
      rfl
  | case4 s line rest hpassed status t hrun =>
      cases hx
      rfl

/-- Each line is run in the session that the one before it left. -/
theorem before_of_executions_next {k : Nat} {x y : Execution}
    (hx : (executions s lines)[k]? = some x) (hy : (executions s lines)[k + 1]? = some y) :
    y.before = x.after := by
  fun_induction executions s lines generalizing k with
  | case1 s => cases hx
  | case2 s line rest hpassed ih => exact ih hx hy
  | case3 s line rest hpassed status t hrun ih =>
      cases k with
      | zero =>
          cases hx
          exact before_of_executions_head hy
      | succ k => exact ih hx hy
  | case4 s line rest hpassed status t hrun => cases hy

/-- Behind a line that lets no other run there is none. -/
theorem executions_stop {k : Nat} {x : Execution} {n : Int} (hx : (executions s lines)[k]? = some x)
    (hstep : x.step = .last n) : k + 1 = (executions s lines).length := by
  fun_induction executions s lines generalizing k with
  | case1 s => cases hx
  | case2 s line rest hpassed ih => exact ih hx
  | case3 s line rest hpassed status t hrun ih =>
      cases k with
      | zero =>
          cases hx
          cases hstep
      | succ k =>
          rw [List.length_cons, ih hx]
  | case4 s line rest hpassed status t hrun =>
      cases k with
      | zero => rfl
      | succ k => cases hx

/-- Such a line gives the status of the script. -/
theorem outcomeOf_of_stop {k : Nat} {x : Execution} {n : Int}
    (hx : (executions s lines)[k]? = some x) (hstep : x.step = .last n) (status : Int) :
    (outcomeOf s status (executions s lines)).1 = n := by
  have hk := executions_stop hx hstep
  have hlast : (executions s lines).getLast? = some x := by
    rw [List.getLast?_eq_getElem?, ← hk, Nat.add_sub_cancel]
    exact hx
  rw [outcomeOf, hlast]
  calc
    x.step.status = (Step.last n).status := by rw [hstep]
    _ = n := rfl

/-- What each line keeps holds before every line. -/
theorem executions_invariant {P : Session → Prop}
    (hkeeps : ∀ x ∈ executions s lines, P x.before → P x.after) (hs : P s) :
    ∀ x ∈ executions s lines, P x.before := by
  fun_induction executions s lines with
  | case1 s =>
      intro x hx
      cases hx
  | case2 s line rest hpassed ih => exact ih hkeeps hs
  | case3 s line rest hpassed status t hrun ih =>
      -- The first line keeps it, so it holds where the others start.
      have ht : P t := hkeeps _ List.mem_cons_self hs
      intro x hx
      rcases List.mem_cons.1 hx with rfl | hrest
      · exact hs
      · exact ih (fun y hy => hkeeps y (List.mem_cons_of_mem _ hy)) ht x hrest
  | case4 s line rest hpassed status t hrun =>
      intro x hx
      rw [List.mem_singleton.1 hx]
      exact hs

theorem runLine_table (s : Session) (line : String) : (runLine s line).2.table = s.table := by
  have hrun := Session.table_eq_of_frame_eq (run_keeps_frame line .terminal s)
  rcases hr : runOn (Session.run line .terminal) s with ⟨e | result, t⟩ <;> rw [hr] at hrun
  · rw [runLine_of_error hr]
    cases e <;> exact hrun
  · rw [runLine_of_ok hr]
    exact hrun

/-- Every execution has the standard builtins if the first one has. -/
theorem table_of_mem_executions (htable : s.table = Builtin.standard) {x : Execution}
    (hx : x ∈ executions s lines) : x.before.table = Builtin.standard := by
  refine executions_invariant (P := fun s => s.table = Builtin.standard) ?_ htable x hx
  intro y hy hbefore
  have hran : runLine y.before y.line = (y.step, y.after) := ran_of_mem_executions hy
  have hsame := runLine_table y.before y.line
  rw [hran] at hsame
  exact hsame.trans hbefore

/-- Every script that is run with the builtins that every session starts with. -/
theorem account_executions (htable : s.table = Builtin.standard) (lines : List String) :
    Account s lines (executions s lines) (runScript s 0 lines) := by
  have hran : ∀ x ∈ executions s lines, x.Ran := fun x hx => ran_of_mem_executions hx
  have htables : ∀ x ∈ executions s lines, x.before.table = Builtin.standard :=
    fun x hx => table_of_mem_executions htable hx
  rcases exists_linesToRun s lines with ⟨rest, hlines, hall⟩
  rw [runScript_eq]
  constructor
  case ran => exact hran
  case in_order => exact ⟨rest, hlines.symm⟩
  case first => exact fun x hx => before_of_executions_head hx
  case next => exact fun k x y hx hy => before_of_executions_next hx hy
  case complete =>
    intro hgoes
    have hnone : rest = [] := by
      apply hall
      intro x hx
      -- A line that neither exits nor breaks goes on, whatever its status is.
      exact ⟨x.status, Execution.step_of_goes_on (hran x hx) (htables x hx) (hgoes x hx).1
        (hgoes x hx).2⟩
    rw [hlines, hnone, List.append_nil]
  case exit =>
    intro k x c hx hexits
    have hmem := List.mem_of_getElem? hx
    have hstep := (Execution.step_of_exits (hran x hmem) (htables x hmem) hexits).1
    exact ⟨executions_stop hx hstep, outcomeOf_of_stop hx hstep 0⟩
  case breaks =>
    intro k x hx hbreaks
    have hstep := Execution.step_of_breaks (hran x (List.mem_of_getElem? hx)) hbreaks
    exact ⟨executions_stop hx hstep, outcomeOf_of_stop hx hstep 0⟩
  case status =>
    intro hbreaks
    rw [outcomeOf]
    cases hend : (executions s lines).getLast? with
    | none => rfl
    | some x =>
        have hx := List.mem_of_getLast? hend
        -- The last line goes on or exits, and its status is what it leaves either way.
        by_cases hexits : ∃ c, x.Exits c
        · rcases hexits with ⟨c, hexits⟩
          rcases Execution.step_of_exits (hran x hx) (htables x hx) hexits with ⟨hstep, hstatus⟩
          simp [hstep, Step.status, hstatus]
        · have hstep := Execution.step_of_goes_on (hran x hx) (htables x hx) (not_exists.1 hexits)
            (hbreaks x hx)
          simp [hstep, Step.status]
  case session =>
    rw [outcomeOf]
    cases (executions s lines).getLast? <;> rfl

/-! ## An error output that takes every write -/

/-- The errors take all that is written, before each execution. -/
theorem takesAll_of_mem_executions (htakes : s.scene.host.stderr.TakesAll)
    (h : ∀ x ∈ executions s lines, x.RunsBuiltins) {x : Execution} (hx : x ∈ executions s lines) :
    x.before.scene.host.stderr.TakesAll := by
  refine executions_invariant (P := fun s => s.scene.host.stderr.TakesAll) ?_ htakes x hx
  intro y hy hbefore
  have hran : runLine y.before y.line = (y.step, y.after) := ran_of_mem_executions hy
  have hafter := run_takesAll hbefore (h y hy)
  -- Behind an error there is one more write, the report of it.
  rcases hr : runOn (Session.run y.line .terminal) y.before with ⟨e | result, t⟩ <;>
    rw [hr] at hafter
  · rw [runLine_of_error hr, Prod.mk.injEq] at hran
    have hnoted : (noteFailure t e).scene.host.stderr.TakesAll := by
      rw [noteFailure_host]
      exact hafter
    rw [← hran.2]
    exact (hnoted.write _).2
  · rw [runLine_of_ok hr, Prod.mk.injEq] at hran
    rw [← hran.2]
    exact hafter

/-- There the program does not break down. -/
theorem not_breaks_of_mem_executions (htakes : s.scene.host.stderr.TakesAll)
    (h : ∀ x ∈ executions s lines, x.RunsBuiltins) {x : Execution} (hx : x ∈ executions s lines) :
    ¬ x.Breaks := by
  rintro ⟨e, t, fault, hrun, hfault⟩
  have hafter := run_takesAll (takesAll_of_mem_executions htakes h hx) (h x hx)
  rw [hrun] at hafter
  have hsaid : (writeError t.scene.host (complaintOf e)).2 = .ok () := (hafter.write _).1
  rw [hsaid] at hfault
  cases hfault

/-! ## Another input -/

/-- A line that runs nothing but builtins leaves alone what is left on the input. -/
theorem runLine_withInput {line : String} {input : Bytes}
    (h : ∀ rest w v, s.Reaches line .terminal rest w v →
    v.RunsStandard (substitutionWithin rest) w) :
    runLine (s.withInput input) line =
      ((runLine s line).1, (runLine s line).2.withInput input) := by
  have htracks := @run_tracks_withInput input s .terminal line h
  unfold Tracks at htracks
  rcases hr : runOn (Session.run line .terminal) s with ⟨e | result, t⟩ <;> rw [hr] at htracks
  · rw [runLine_of_error hr, runLine_of_error htracks]
    cases e <;> rfl
  · rw [runLine_of_ok hr, runLine_of_ok htracks]

/-- Lines of builtins are executed alike whatever the input holds. -/
theorem executions_withInput (input : Bytes) (h : ∀ x ∈ executions s lines, x.RunsBuiltins) :
    executions (s.withInput input) lines = (executions s lines).map fun x => x.withInput input := by
  fun_induction executions s lines with
  | case1 s => rfl
  | case2 s line rest hpassed ih =>
      rw [executions, if_pos hpassed]
      exact ih h
  | case3 s line rest hpassed status t hrun ih =>
      -- The line leaves the input as it was, so the rest starts with the same input again.
      have hline := @runLine_withInput s line input (h _ List.mem_cons_self)
      rw [hrun] at hline
      rw [executions, if_neg hpassed, hline, List.map_cons]
      dsimp only
      rw [ih fun x hx => h x (List.mem_cons_of_mem _ hx)]
      rfl
  | case4 s line rest hpassed status t hrun =>
      have hline := @runLine_withInput s line input (h _ List.mem_cons_self)
      rw [hrun] at hline
      rw [executions, if_neg hpassed, hline]
      rfl

/-- A script of builtins comes to the same whatever the input holds. -/
theorem runScript_withInput (input : Bytes) (h : ∀ x ∈ executions s lines, x.RunsBuiltins)
    (status : Int) :
    runScript (s.withInput input) status lines =
      ((runScript s status lines).1, (runScript s status lines).2.withInput input) := by
  rw [runScript_eq, runScript_eq, executions_withInput input h, outcomeOf, outcomeOf,
    List.getLast?_map]
  cases (executions s lines).getLast? <;> rfl

end Scripts

end CommandLine
end LineShell
