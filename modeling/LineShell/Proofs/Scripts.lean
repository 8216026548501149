import LineShell.Proofs.InputLines
import LineShell.Proofs.LineByLine

/-!
# Scripts — lines from a file and from the input

The shell can be started on a script file, and it can read a script from its input. Both ways come
to the same, as long as no program is run that could read the rest of the input.

* `Setup.start_keeps`, `Setup.start_withInput` — how a session is opened;
* `Invocation.run_file`, `Invocation.run_reading` — the two ways to run a script;
* `script_runs_alike_from_file_and_input` — they run the same lines and come to the same.
-/

namespace LineShell

/-! ## How a session is opened -/

namespace Setup

/-- A file that holds an encoded text is read as that text. -/
theorem readText_of_encode {d : Disk} {path text : String}
    (h : d.read path = .ok (Utf8.encode text)) :
    readText d path = .ok text := by
  have htext : Utf8.decode? (Utf8.encode text) = some text := by
    rw [Utf8.encode, Utf8.decode?_encode, String.ofList_toList]
  simp only [readText, h, bind, Except.bind, htext]
  rfl

/-- Events that are noted in turn are noted as a whole. -/
theorem foldl_noting (events : List Log.Event) (s : Session) :
    events.foldl Session.noting s = s.withScene (s.scene.notingAll events) := by
  induction events generalizing s with
  | nil =>
      rw [Scene.notingAll_nil]
      rfl
  | cons event events ih =>
      rw [List.foldl_cons, ih, Scene.notingAll_cons]
      rfl

/-- A dotenv file changes the variables and is recorded, and that is all. -/
theorem loadDotenv_keeps (s : Session) (path : String) :
    (loadDotenv s path).scene.host = s.scene.host ∧ (loadDotenv s path).scene.cwd = s.scene.cwd ∧
      (loadDotenv s path).table = s.table := by
  unfold loadDotenv
  simp only [foldl_noting]
  exact ⟨rfl, rfl, rfl⟩

/-- Loading variables reads no input. -/
theorem loadDotenv_withInput (s : Session) (path : String) (input : Bytes) :
    loadDotenv (s.withInput input) path = (loadDotenv s path).withInput input := by
  unfold loadDotenv
  simp only [foldl_noting]
  rfl

/-- Loading variables changes neither host nor directory nor builtins. -/
theorem loadChosen_keeps (setup : Setup) (s : Session) :
    (setup.loadChosen s).scene.host = s.scene.host ∧ (setup.loadChosen s).scene.cwd = s.scene.cwd ∧
      (setup.loadChosen s).table = s.table := by
  unfold loadChosen
  split
  · exact ⟨rfl, rfl, rfl⟩
  · exact loadDotenv_keeps s _
  · exact loadDotenv_keeps s _

theorem loadChosen_withInput (setup : Setup) (s : Session) (input : Bytes) :
    setup.loadChosen (s.withInput input) = (setup.loadChosen s).withInput input := by
  unfold loadChosen
  split
  · rfl
  · exact loadDotenv_withInput s _ input
  · exact loadDotenv_withInput s _ input

/-- A session starts on its host, in its directory and with its builtins. -/
theorem start_keeps (setup : Setup) (host : Host) :
    (setup.start host).scene.host = host ∧ (setup.start host).scene.cwd = setup.cwd ∧
      (setup.start host).table =
        setup.builtins.foldl (fun t b => t.register b.1 b.2) Builtin.standard :=
  setup.loadChosen_keeps (setup.fresh host)

/-- Opening a session does not look at the input of the process. -/
theorem start_withInput (setup : Setup) (host : Host) (input : Bytes) :
    setup.start (host.withInput input) = (setup.start host).withInput input := by
  have hfresh : setup.fresh (host.withInput input) = (setup.fresh host).withInput input := rfl
  unfold start
  rw [hfresh, loadChosen_withInput]
  rfl

end Setup

/-! ## Two ways to run a script -/

namespace CommandLine

namespace Invocation

variable (i : Invocation) (a : Arguments)

/-- The same at other times: the clock that the records of events show is another one. -/
def atTimes (clock : Nat → Moment) : Invocation :=
  { i with subscriber := { i.subscriber with clock } }

/-- The shell is started with other words, and reads a text from an input that is no terminal. -/
def reading (words : List String) (text : String) : Invocation :=
  { i with args := words, terminalInput := false, host := i.host.withInput (Utf8.encode text) }

/-- An opened invocation has the host it was given, with colors as asked. -/
theorem opened_host :
    (i.opened a).scene.host = { i.host with colors := i.colors, home := some i.home } :=
  ((i.setup a).start_keeps _).1

theorem opened_cwd : (i.opened a).scene.cwd = i.cwd :=
  ((i.setup a).start_keeps _).2.1

theorem opened_table : (i.opened a).table = Builtin.standard :=
  ((i.setup a).start_keeps _).2.2

/-- Where a script is read from makes no difference to the session it opens. -/
theorem opened_reading (words : List String) (text : String) :
    (i.reading words text).opened { a with script := none } =
      (i.opened a).withInput (Utf8.encode text) :=
  (i.setup a).start_withInput { i.host with colors := i.colors, home := some i.home }
    (Utf8.encode text)

variable {i a} {path text : String}

/-- A file that is read runs as the script of its lines. -/
theorem runFile_of_read {s : Session}
    (h : s.scene.host.disk.read (Path.join s.scene.cwd path) = .ok (Utf8.encode text)) :
    runFile s path = runScript s 0 (linesOf text) := by
  have hread := Setup.readText_of_encode h
  unfold runFile
  rw [hread]

/-- A script file is found where the shell is started. -/
theorem run_file (hline : a.command = none) (hpath : a.script = some path)
    (hfile : i.host.disk.read (Path.join i.cwd path) = .ok (Utf8.encode text)) :
    i.run a = runScript (i.opened a) 0 (linesOf text) := by
  have hrun : i.run a = runFile (i.opened a) path := by
    unfold run
    rw [hline, hpath]
  have hfound : (i.opened a).scene.host.disk.read (Path.join (i.opened a).scene.cwd path) =
      .ok (Utf8.encode text) := by
    rw [opened_host, opened_cwd]
    exact hfile
  rw [hrun]
  exact runFile_of_read hfound

/-- A text from the input runs as a file with that text would. -/
theorem run_reading (words : List String) (hline : a.command = none) :
    (i.reading words text).run { a with script := none } =
      runScript ((i.opened a).withInput []) 0 (linesOf text) := by
  have hstdin : ((i.opened a).withInput (Utf8.encode text)).scene.host.stdin = Utf8.encode text :=
    rfl
  have hpiped : ¬ (i.reading words text).terminalInput = true := Bool.false_ne_true
  rw [run, opened_reading, hline]
  dsimp only
  rw [if_neg hpiped, runInput, hstdin, linesIn?_encode]
  rfl

end Invocation

/-- A script that runs nothing but builtins, whatever its text is. Started on a file that holds it,
or reading it from an input that is no terminal, the shell runs the same lines in the same order,
each in the same session but for what is left on the input, and it ends with the same status, the
same disk and the same output. That goes for the error output with all records of events that pass
the filter, however the filter is worded and whatever a record looks like; only the time that a
record shows is that of its own run. The account says which lines these are and what the status is:
a line that runs `exit` is the last and gives the status, and otherwise every line that is neither
blank nor a comment is run, whatever came of those before it, and the last one gives the status.
Only a line whose error cannot be reported ends the program; there is none if the error output takes
every write. -/
theorem script_runs_alike_from_file_and_input (i : Invocation) (a : Arguments) (words : List String)
    (path text : String) (clock : Nat → Moment) (hwords : Arguments.read {} i.args = .run a)
    (hline : a.command = none) (hpath : a.script = some path)
    (hwords' : Arguments.read {} words = .run { a with script := none })
    (hfile : i.host.disk.read (Path.join i.cwd path) = .ok (Utf8.encode text))
    (hbuiltins : ∀ x ∈ executions (i.opened a) (linesOf text), x.RunsBuiltins) :
    let s := i.opened a
    let xs := executions s (linesOf text)
    let j := (i.atTimes clock).reading words text
    ∃ status t, i.run a = (status, t) ∧ j.run { a with script := none } = (status, t.withInput []) ∧
      Account s (linesOf text) xs (status, t) ∧
      Account (s.withInput []) (linesOf text) (xs.map fun x => x.withInput []) (status,
        t.withInput []) ∧
      i.finish = (Invocation.systemStatus status, i.hostAfter a t) ∧
      j.finish = (Invocation.systemStatus status, ((i.atTimes clock).hostAfter a t).withInput []) ∧
      (i.host.stderr.TakesAll → ∀ x ∈ xs, ¬ x.Breaks) := by
  intro s xs j
  have htable : s.table = Builtin.standard := i.opened_table a
  have hfrom : i.run a = runScript s 0 (linesOf text) := i.run_file hline hpath hfile
  have hinto : j.run { a with script := none } = runScript (s.withInput []) 0 (linesOf text) :=
    (i.atTimes clock).run_reading words hline
  -- Both come to the script of its lines, and builtins do not look at what is left on the input.
  have hsame : runScript (s.withInput []) 0 (linesOf text) =
      ((i.run a).1, (i.run a).2.withInput []) := by
    rw [hfrom]
    exact runScript_withInput [] hbuiltins 0
  have hinput := account_executions (s := s.withInput []) htable (linesOf text)
  rw [executions_withInput [] hbuiltins, hsame] at hinput
  refine ⟨(i.run a).1, (i.run a).2, rfl, hinto.trans hsame, ?_, hinput, ?_, ?_, ?_⟩
  · have hfile := account_executions htable (linesOf text)
    rw [← hfrom] at hfile
    exact hfile
  · rw [Invocation.finish, hwords]
  · have hread : Arguments.read {} j.args = .run { a with script := none } := hwords'
    rw [Invocation.finish, hread]
    dsimp only
    rw [hinto, hsame]
    rfl
  · intro htakes x hx
    have hstart : (i.opened a).scene.host.stderr.TakesAll := by
      rw [Invocation.opened_host]
      exact htakes
    exact not_breaks_of_mem_executions hstart hbuiltins hx

/-- Without a substitution there is no command but the one that is written out. -/
theorem name_of_occurs_plain {levels rest : Nat} {wiring w : Wiring} {s : Session} {v : Visit}
    {c : Command} (hplain : ∀ q, Part.substitution q ∉ c.parts)
    (hv : Occurs levels [c] wiring s rest w v) :
    v.command.name = c.name := by
  cases hv with
  | here visited => rw [List.mem_singleton.1 (command_mem_of_visits visited)]
  | inside visited entered _ =>
      have hinner := entered.mem_parts
      rw [List.mem_singleton.1 (command_mem_of_visits visited)] at hinner
      exact (hplain _ hinner).elim

/-- One builtin by its plain name, without substitutions, starts no program. -/
theorem Execution.runsBuiltins_of_plain {x : Execution} {name : String} {c : Command} {b : Builtin}
    (htable : x.before.table = Builtin.standard) (hparse : Pipeline.parse x.line = .ok [c])
    (hname : c.name = [.text name]) (hplain : ∀ q, Part.substitution q ∉ c.parts)
    (hfound : Builtin.standard.lookup name = some b) : x.RunsBuiltins := by
  rintro rest w v ⟨p, hp, hv⟩
  cases hparse.symm.trans hp
  apply Visit.runsStandard_of_name (substitutionWithin_keepsFrame rest) (hv.table_eq.trans htable)
    ?_ hfound
  rw [name_of_occurs_plain hplain hv, hname]

/-- A comment, a blank line, a line that cannot be read, a descriptor that is not connected, and
`exit` before the end, with line ends of both kinds. -/
def farewell : String := "# leave\r\n\necho >\ntrue 7> f\nexit 3\r\necho never"

/-- The shell is started on a file that holds these lines. Its records show the time, the level and
the message. -/
def farewellFile : Invocation :=
  { args := ["--no-dotenv", "s"]
    env := []
    cwd := "/"
    host := {
      disk := bareSession.scene.host.disk.add ["s"] (.file (.ofBytes (Utf8.encode farewell)))
        Disk.fileMode }
    subscriber :=
      { filter? := fun _ => none
        clock := fun n => n
        text := fun moment event =>
          Utf8.encode s!"{moment} {event.level.render} {event.message}\n" } }

/-- Of the lines of the file, only these four can be run, and each of them is broken or a builtin by
its plain name. -/
theorem farewell_runsBuiltins (a : Arguments) :
    ∀ x ∈ executions (farewellFile.opened a) (linesOf farewell), x.RunsBuiltins := by
  intro x hx
  have htable := table_of_mem_executions (farewellFile.opened_table a) hx
  have hline : x.line ∈ linesToRun (linesOf farewell) := by
    rcases exists_linesToRun (farewellFile.opened a) (linesOf farewell) with ⟨rest, hlines, -⟩
    rw [hlines]
    exact List.mem_append_left rest (List.mem_map_of_mem hx)
  have hlines : linesToRun (linesOf farewell) =
    ["echo >", "true 7> f", "exit 3", "echo never"] := by decide
  rw [hlines] at hline
  simp only [List.mem_cons, List.not_mem_nil, or_false] at hline
  rcases hline with hline | hline | hline | hline
  · rintro rest w v ⟨p, hparse, -⟩
    have herror : Pipeline.parse "echo >" = .error ⟨.missingTarget (.output false), 6⟩ := by
      with_unfolding_all rfl
    rw [hline, herror] at hparse
    cases hparse
  · have hparse : Pipeline.parse "true 7> f" =
        .ok [⟨[.text "true"], [], [⟨.descriptor "7", false, [.text "f"]⟩]⟩] := by
      with_unfolding_all rfl
    apply Execution.runsBuiltins_of_plain htable (hline ▸ hparse) rfl (by simp [Stage.parts])
    exact rfl
  · have hparse : Pipeline.parse "exit 3" = .ok [⟨[.text "exit"], [[.text "3"]], []⟩] := by
      with_unfolding_all rfl
    exact Execution.runsBuiltins_of_plain htable (hline ▸ hparse) rfl (by simp [Stage.parts])
      lookup_exit
  · have hparse : Pipeline.parse "echo never" =
      .ok [⟨[.text "echo"], [[.text "never"]], []⟩] := by
      with_unfolding_all rfl
    exact Execution.runsBuiltins_of_plain htable (hline ▸ hparse) rfl (by simp [Stage.parts])
      lookup_echo

/-- The line that cannot be read is reported and does not keep the shell from leaving, with the
status it is told. Started a thousand moments later on its input, the shell does the same, and the
record of the warning tells when. -/
theorem farewell_ends_alike :
    ∃ t later, farewellFile.finish = (3, t) ∧
      ((farewellFile.atTimes fun n => n + 1000).reading ["--no-dotenv"] farewell).finish =
        (3, later) ∧
      t.stderr.written = Utf8.encode ("minsh: syntax error: Expected target after '>'\n" ++
        "7 WARN descriptor redirection is opened but not connected\n") ∧
      later.stderr.written = Utf8.encode ("minsh: syntax error: Expected target after '>'\n" ++
        "1007 WARN descriptor redirection is opened but not connected\n") := by
  -- The theorem says what both runs end in, and each is run to see what that is.
  rcases script_runs_alike_from_file_and_input farewellFile
    { script := some "s", noDotenv := true } ["--no-dotenv"] "s" farewell (fun n => n + 1000)
    (by decide) rfl rfl (by decide) rfl (farewell_runsBuiltins _) with
    ⟨status, t, -, -, -, -, hfile, hinput, -⟩
  have hends : farewellFile.finish.1 = 3 ∧
      farewellFile.finish.2.stderr.written =
        Utf8.encode ("minsh: syntax error: Expected target after '>'\n" ++
        "7 WARN descriptor redirection is opened but not connected\n") := by
    decide +kernel
  rw [hfile] at hends
  have hlater : ((farewellFile.atTimes fun n => n + 1000).reading ["--no-dotenv"]
    farewell).finish.2.stderr.written =
      Utf8.encode ("minsh: syntax error: Expected target after '>'\n" ++
        "1007 WARN descriptor redirection is opened but not connected\n") := by
    decide +kernel
  rw [hinput] at hlater
  have hstatus : Invocation.systemStatus status = 3 := hends.1
  rw [hfile, hinput, hstatus]
  exact ⟨_, _, rfl, rfl, hends.2, hlater⟩

end CommandLine
end LineShell
