import LineShell.Proofs.Conduct
import LineShell.Proofs.Visits

/-!
# DataFlow — what the stages of a pipeline hand to one another

Each stage reads what the one before it left in its buffer, unless it has a file to read. The
pipeline stops behind a stage that ends the session or that could not open its files, and its answer
is that of the last stage which was run.

* `Visit.Meets.leaves`, `Visit.Meets.reads` — what a stage leaves in its buffer and what it reads,
  for each fate;
* `Course`, `Visit.Channels`, `Answer` — order and hand-over, the channels of one stage, the end of
  the run;
* `pipeline_hands_over` — they hold for every pipeline in every session.
-/

namespace LineShell

/-! ## What a stage leaves -/

section Stage

variable {sub : Substitution} {wiring : Wiring} {v : Visit} {stage : Stage String}
  {files : StageFiles} {err : Sink} {t : Session} {fate : Fate} {ended : Ended}

/-- What a command writes into memory is all that is there afterwards. -/
theorem Commanded.out_eq {input : Input} {out' err' : Sink}
    (h : Commanded stage files input .memory err t fate out' err') :
    out' = .buffer fate.written := by
  cases h <;> rfl

/-- The buffer of a stage holds what its command wrote. It stays empty if the output is redirected,
or if no command was run. -/
theorem Visit.Meets.leaves (h : v.Meets sub wiring fate ended) (hout : v.out = .memory) :
    ended.out = .buffer (if v.command.Redirects .stdout then [] else fate.written) := by
  cases h with
  | unexpanded _ _ => simp [hout, Fate.written, Sink.memory]
  | unopened _ _ _ _ => simp [hout, Fate.written, Sink.memory]
  | nameless _ _ => simp [hout, Fate.written, Sink.memory]
  | @command stage files err out' err' err'' t fate ready _ ends _ =>
      have hiff : files.stdout.isSome ↔ v.command.Redirects .stdout :=
        @Visit.Ready.isSome_iff _ _ _ _ _ _ _ ready .stdout (by decide)
      by_cases hfile : v.command.Redirects .stdout
      · simp [StageFiles.settle, hfile, hiff.2 hfile, hout, Sink.memory]
      · have hnone : files.stdout = none := by
          rw [← Option.not_isSome_iff_eq_none]
          exact fun hsome => hfile (hiff.1 hsome)
        have hor : files.outOr v.out = .memory := by simp [StageFiles.outOr, hnone, hout]
        rw [hor] at ends
        simp [StageFiles.settle, hfile, hnone, ends.out_eq]

/-! ## What a stage reads -/

/-- What a builtin gets of an input. The input of the process is not for builtins. -/
def Input.toStdin : Input → Option Bytes
  | .piped bytes => some bytes
  | _ => none

/-- What a program gets of an input. -/
def Input.toFeed : Input → Feed
  | .piped bytes => .bytes bytes
  | .empty => .bytes []
  | .inherited => .inherited

/-- If a command was run, it was given what the pipeline has for it. -/
def Fate.ReadsInput (input : Input) : Fate → Prop
  | .builtin _ _ stdin _ _ => stdin = input.toStdin
  | .stopped _ feed | .ran _ feed _ _ => feed = input.toFeed
  | _ => True

/-- If a command was run, it was given an opened file. -/
def Fate.ReadsFile (opened : Handle → Disk → Prop) : Fate → Prop
  | .builtin _ _ stdin _ _ =>
      ∃ handle disk bytes, opened handle disk ∧ disk.readAll handle = .ok bytes ∧ stdin = some bytes
  | .stopped _ feed | .ran _ feed _ _ => ∃ handle disk, opened handle disk ∧ feed = .file handle
  | _ => True

/-- The handle is that of an input redirection of the stage, opened after all redirections before
it; `disk` is the disk once all of them are open. -/
def Visit.OpensInput (sub : Substitution) (wiring : Wiring) (v : Visit) (handle : Handle)
    (disk : Disk) :
    Prop :=
  ∃ stage err t front r back opened u files t', v.Expanded sub wiring stage err t ∧
    stage.redirections = front ++ r :: back ∧ r.role = .stdin ∧
    runOn (openAll {} front) t = (.ok (.ok opened), u) ∧
    u.scene.host.disk.openInput (Path.resolve u.scene.cwd r.target) = .ok handle ∧
    runOn (openAll {} stage.redirections) t = (.ok (.ok files), t') ∧ disk = t'.scene.host.disk

/-- A stage with a file as its input has opened that file. -/
theorem Visit.Ready.opensInput (ready : v.Ready sub wiring stage files err t) {handle : Handle}
    (hfile : files.stdin = some handle) : v.OpensInput sub wiring handle t.scene.host.disk := by
  rcases ready with ⟨u, hexp, -, hopen⟩
  rcases openAll_connects hopen (show Role.stdin.rank < 3 by decide) with
    ⟨-, hbare⟩ | ⟨front, r, back, opened, u', disk, handle', hrs, hr, hfront, hat, hfile'⟩
  · simp [StageFiles.ofRole, hfile] at hbare
  · have hhandle : handle' = handle := by
      simpa [StageFiles.ofRole, hfile] using hfile'.symm
    subst hhandle
    refine ⟨stage, err, u, front, r, back, opened, u', files, t, hexp, hrs, hr, hfront, ?_, hopen,
      rfl⟩
    rw [Disk.openFor] at hat
    cases hinput : u'.scene.host.disk.openInput (Path.resolve u'.scene.cwd r.target) with
    | error fault => simp [hinput, Except.map] at hat
    | ok handle'' =>
        simp only [hinput, Except.map, Except.ok.injEq, Prod.mk.injEq] at hat
        rw [hat.2]

/-- Without a file, a builtin is handed what the stage before gave. -/
theorem builtinInput_none {input : Input} {s : Session} {stdin : Option Bytes}
    (h : runOn (builtinInput none input) s = (.ok stdin, s)) : stdin = input.toStdin := by
  cases input <;> (cases h; rfl)

/-- With a file, a builtin is handed all the bytes of it. -/
theorem builtinInput_some {handle : Handle} {input : Input} {s : Session} {stdin : Option Bytes}
    (h : runOn (builtinInput (some handle) input) s = (.ok stdin, s)) :
    ∃ bytes, s.scene.host.disk.readAll handle = .ok bytes ∧ stdin = some bytes := by
  simp only [builtinInput, runOn_bind, runOn_get] at h
  cases hread : s.scene.host.disk.readAll handle with
  | error fault =>
      rw [hread] at h
      cases h
  | ok bytes =>
      rw [hread] at h
      cases h
      exact ⟨bytes, rfl, rfl⟩

/-- A file comes first; without one the command reads what the pipeline hands to it. -/
theorem Visit.Meets.reads (h : v.Meets sub wiring fate ended) :
    if v.command.Redirects .stdin then fate.ReadsFile (v.OpensInput sub wiring)
    else fate.ReadsInput v.input := by
  cases h with
  | unexpanded _ _ => split <;> trivial
  | unopened _ _ _ _ => split <;> trivial
  | nameless _ _ => split <;> trivial
  | @command stage files err out' err' err'' t fate ready _ ends _ =>
      -- Only a command reads: from its file if it has a redirection for that, and else from its
      -- input.
      have hiff : files.stdin.isSome ↔ v.command.Redirects .stdin :=
        @Visit.Ready.isSome_iff _ _ _ _ _ _ _ ready .stdin (by decide)
      cases hfile : files.stdin with
      | none =>
          rw [if_neg (by simp [← hiff, hfile])]
          cases ends with
          | builtin _ fed _ =>
              rw [hfile] at fed
              exact builtinInput_none fed
          | unstarted _ _ => trivial
          | stopped _ _ _ =>
              rw [hfile]
              cases v.input <;> rfl
          | ran _ _ _ =>
              rw [hfile]
              cases v.input <;> rfl
      | some handle =>
          rw [if_pos (by simp [← hiff, hfile])]
          have hopen := ready.opensInput hfile
          cases ends with
          | builtin _ fed _ =>
              rw [hfile] at fed
              rcases builtinInput_some fed with ⟨bytes, hread, hstdin⟩
              exact ⟨handle, _, bytes, hopen, hread, hstdin⟩
          | unstarted _ _ => trivial
          | stopped _ _ _ => exact ⟨handle, _, hopen, by rw [hfile]; rfl⟩
          | ran _ _ _ => exact ⟨handle, _, hopen, by rw [hfile]; rfl⟩

end Stage

/-! ## Pipelines -/

/-- The visits `vs` are a course through the pipeline: its stages in order, each connected to the
one before it, up to its end or to a stage that does not let the next one run. -/
structure Course (sub : Substitution) (wiring : Wiring) (p : Pipeline) (s : Session)
    (vs : List Visit) : Prop where
  runs : ∀ v ∈ vs, v.Runs sub wiring
  in_order : vs.map Visit.command <+: p
  starts : p ≠ [] → vs ≠ []
  first : ∀ v, vs[0]? = some v →
    v.input = wiring.firstInput ∧ v.err = wiring.errorSink ∧
      v.before = s.noting (.stageStarting 0 p.length)
  next : ∀ i v w, vs[i]? = some v → vs[i + 1]? = some w → v.HandsOver p.length i w
  output : ∀ i v, vs[i]? = some v → v.out = wiring.outputSink (p.length - (i + 1))
  goes_on : ∀ i v ended, vs[i]? = some v → v.Passed ended → i + 1 = p.length ∨ i + 1 < vs.length

/-- What a stage with the given fate reads and leaves. -/
structure Visit.Channels (sub : Substitution) (wiring : Wiring) (v : Visit) (fate : Fate)
    (ended : Ended) : Prop where
  meets : v.Meets sub wiring fate ended
  outcome : ended.outcome = fate.outcome
  leaves : v.out = .memory →
    ended.out = .buffer (if v.command.Redirects .stdout then [] else fate.written)
  reads :
    if v.command.Redirects .stdin then fate.ReadsFile (v.OpensInput sub wiring)
    else fate.ReadsInput v.input

/-- The stage is a builtin that asked the session to end. -/
def Visit.Exits (sub : Substitution) (wiring : Wiring) (v : Visit) (c : Int) : Prop :=
  ∃ name args stdin out ended, v.result = .ok ended ∧
    v.Meets sub wiring (.builtin name args stdin (.ok (.exit c)) out) ended

/-- The answer `r` of a run is that of the last visit, and no stage behind it has any effect. -/
structure Answer (sub : Substitution) (wiring : Wiring) (s : Session) (vs : List Visit)
    (r : Except Error Result × Session) : Prop where
  empty : vs = [] → r = (.ok {}, s)
  broken : ∀ front v e, vs = front ++ [v] → v.result = .error e → r = (.error e, v.after)
  ended : ∀ front v ended, vs = front ++ [v] → v.result = .ok ended →
    ∃ result, r = (.ok result, v.after.noting (.stageFinished front.length ended.outcome)) ∧
      result.code = ended.outcome.status ∧
      (wiring.captureOutput = true →
        result.stdout = if ended.outcome.Continues then Utf8.decodeLossy ended.out.held else "")
  exit : ∀ result t c, r = (.ok result, t) →
    (result.exit = some c ↔ ∃ v ∈ vs, v.Exits sub wiring c) ∧
      (result.exit = some c → result.code = c)

section Pipelines

variable {sub : Substitution} {wiring : Wiring} {p : Pipeline} {s : Session} {v : Visit}

/-- The stages that a run visits form a course. -/
theorem course_visits : Course sub wiring p s (visits sub wiring p s) where
  runs _ hv := visitsFrom_runs hv
  in_order := visitsFrom_commands
  starts := visitsFrom_ne_nil
  first _ hv := visitsFrom_head hv
  next i _ _ hv hw := Nat.zero_add i ▸ visitsFrom_handsOver hv hw
  output _ _ hv := visitsFrom_output hv
  goes_on _ _ _ hv hpass := visitsFrom_passed hv hpass

/-- A stage that ends has a fate that tells what went to which channel. -/
theorem exists_channels {ended : Ended} (hrun : v.Runs sub wiring) (hr : v.result = .ok ended) :
    ∃ fate, v.Channels sub wiring fate ended := by
  rcases hrun.exists_meets hr with ⟨fate, hmeets⟩
  exact ⟨fate, hmeets, hmeets.outcome_eq, hmeets.leaves, hmeets.reads⟩

/-- A stage asks the session to end if and only if its outcome says so. -/
theorem exits_iff {ended : Ended} {c : Int} (hrun : v.Runs sub wiring) (hr : v.result = .ok ended) :
    v.Exits sub wiring c ↔ ended.outcome.exit? = some c := by
  constructor
  · rintro ⟨name, args, stdin, out, ended', hr', hmeets⟩
    rw [hr] at hr'
    cases hr'
    rw [hmeets.outcome_eq]
    rfl
  · intro hexit
    rcases exists_channels hrun hr with ⟨fate, hmeets, houtcome, -, -⟩
    rw [houtcome] at hexit
    rcases fate with _ | _ | _ | ⟨name, args, stdin, _ | (n | n), out⟩ | _ | _ | _
    all_goals cases hexit
    exact ⟨name, args, stdin, out, ended, hr, hmeets⟩

/-- With the builtins that every session starts with, only `exit` asks the session to end. -/
theorem Visit.Meets.exit_iff (hsub : sub.KeepsFrame) (htable : v.before.table = Builtin.standard)
    {name : String} {args : List String} {stdin : Option Bytes} {answer : Except Error Completion}
    {out : Sink} {ended : Ended}
    (h : v.Meets sub wiring (.builtin name args stdin answer out) ended) (c : Int) :
    answer = .ok (.exit c) ↔ name = "exit" ∧ c = (args.head?.map Builtin.exitStatus).getD 0 := by
  cases h with
  | @command stage files err _ _ _ t _ ready _ ends _ =>
      cases ends with
      | @builtin b stdin answer desk found _ answered =>
          have hsame : (t.starting stage).table = Builtin.standard :=
            (Session.table_eq_of_frame_eq (ready.frame_eq hsub)).trans htable
          rw [hsame] at found
          rw [← standard_exits_iff found, answered]

/-- The answer of a pipeline whose last stage came to its end. -/
theorem runWith_ended {front : List Visit} {ended : Ended}
    (hvs : visits sub wiring p s = front ++ [v]) (hr : v.result = .ok ended) :
    ∃ result, runOn (runWith sub p wiring) s =
        (.ok result, v.after.noting (.stageFinished front.length ended.outcome)) ∧
      result.code = ended.outcome.status ∧ result.exit = ended.outcome.exit? ∧
      (wiring.captureOutput = true →
        result.stdout = if ended.outcome.Continues then Utf8.decodeLossy ended.out.held
          else "") := by
  rw [runOn_runWith hvs, Visit.conclusion, hr]
  refine ⟨_, rfl, rfl, rfl, ?_⟩
  intro hcapture
  simp only [Wiring.resultOf, hcapture, if_true]
  split <;> rfl

/-- The pipeline asks the session to end if and only if one of its stages does. -/
theorem runWith_exit_iff {result : Result} {t : Session} {c : Int}
    (h : runOn (runWith sub p wiring) s = (.ok result, t)) :
    (result.exit = some c ↔ ∃ v ∈ visits sub wiring p s, v.Exits sub wiring c) ∧
      (result.exit = some c → result.code = c) := by
  by_cases hp : p = []
  · subst hp
    rw [runWith_nil] at h
    cases h
    simp [visits, visitsFrom]
  rcases @exists_last_visit sub wiring p s hp with ⟨front, v, hvs⟩
  have hv : v ∈ visits sub wiring p s := by simp [hvs]
  cases hr : v.result with
  | error e =>
      rw [runOn_runWith_of_error hv hr] at h
      cases h
  | ok ended =>
      rcases runWith_ended hvs hr with ⟨result', hrun, hcode, hexit, -⟩
      rw [hrun] at h
      cases h
      refine ⟨⟨fun hc => ⟨v, hv, (exits_iff (visitsFrom_runs hv) hr).2 (hexit ▸ hc)⟩, ?_⟩, ?_⟩
      · rintro ⟨w, hw, hwexit⟩
        -- A stage that asks the session to end lets no other run, so it is the last one.
        have hwresult : ∃ ended, w.result = .ok ended := by
          rcases hwexit with ⟨_, _, _, _, ended, hr, -⟩
          exact ⟨ended, hr⟩
        rcases hwresult with ⟨ended', hr'⟩
        have hwout := (exits_iff (visitsFrom_runs hw) hr').1 hwexit
        have hstop : ∀ ended, ¬ w.Passed ended := by
          rintro _ ⟨hr'', hcont⟩
          rw [hr'] at hr''
          cases hr''
          cases houtcome : ended'.outcome <;> simp_all [Outcome.exit?, Outcome.Continues]
        rcases visits_eq_append hw hstop with ⟨front', hvs'⟩
        have hlast : w = v := by
          have := hvs'.symm.trans hvs
          simpa using (List.append_inj' this rfl).2
        subst hlast
        rw [hr] at hr'
        cases hr'
        rw [hexit, hwout]
      · intro hc
        rw [hexit] at hc
        cases houtcome : ended.outcome <;> simp_all [Outcome.exit?, Outcome.status]

/-- The stages that a run visits answer for its result. -/
theorem answer_visits :
    Answer sub wiring s (visits sub wiring p s) (runOn (runWith sub p wiring) s) where
  empty hnil := by
    cases p with
    | nil => exact runWith_nil
    | cons command rest => exact (visitsFrom_ne_nil (List.cons_ne_nil _ _) hnil).elim
  broken front v e hvs hr := runOn_runWith_of_error (by simp [hvs]) hr
  ended front v ended hvs hr := by
    rcases runWith_ended hvs hr with ⟨result, hrun, hcode, -, hout⟩
    exact ⟨result, hrun, hcode, hout⟩
  exit _ _ _ h := runWith_exit_iff h

end Pipelines

/-- For every pipeline, wiring and session, and whatever the programs of the session do: the stages
run in order, and each reads exactly what the one before it left in its buffer, unless it has a file
to read; the answer is that of the last stage that was run, and a stage that asks the session to end
or cannot open its files is the last. -/
theorem pipeline_hands_over (p : Pipeline) (wiring : Wiring) (s : Session) :
    let sub := substitutionWithin s.room
    ∃ vs, Course sub wiring p s vs ∧
      (∀ v ∈ vs, ∀ ended, v.result = .ok ended → ∃ fate, v.Channels sub wiring fate ended) ∧
      Answer sub wiring s vs (runOn (Session.execute p wiring) s) ∧
      (s.table = Builtin.standard →
        ∀ v ∈ vs, ∀ name args stdin answer out ended,
          v.Meets sub wiring (.builtin name args stdin answer out) ended →
          ∀ c, answer = .ok (.exit c) ↔
            name = "exit" ∧ c = (args.head?.map Builtin.exitStatus).getD 0) := by
  intro sub
  have hexecute : runOn (Session.execute p wiring) s = runOn (runWith sub p wiring) s := by
    rw [Session.execute, runOn_bind_of_ok (runOn_get s), runWithin_eq_runWith]
  refine ⟨visits sub wiring p s, course_visits, ?_, ?_, ?_⟩
  · intro v hv ended hr
    exact exists_channels (visitsFrom_runs hv) hr
  · rw [hexecute]
    exact answer_visits
  · intro htable v hv name args stdin answer out ended hmeets c
    have hsub := substitutionWithin_keepsFrame s.room
    refine hmeets.exit_iff hsub ?_ c
    exact (Session.table_eq_of_frame_eq (visitsFrom_frame hsub hv)).trans htable

/-- The pipeline `echo hi | exit 3 | echo`. -/
def interrupted : Pipeline :=
  [⟨[.text "echo"], [[.text "hi"]], []⟩, ⟨[.text "exit"], [[.text "3"]], []⟩,
    ⟨[.text "echo"], [], []⟩]

/-- The stage in the middle asks the session to end, so the last one prints nothing. -/
theorem exit_interrupts_pipeline :
    ∃ vs t, Course (substitutionWithin 64) .captured interrupted {} vs ∧
      runOn (Session.execute interrupted .captured) {} = (.ok { code := 3, exit := some 3 }, t) ∧
      ∃ v ∈ vs, v.Exits (substitutionWithin 64) .captured 3 := by
  rcases pipeline_hands_over interrupted .captured {} with ⟨vs, course, -, answer, -⟩
  have hrun : ∃ t, runOn (Session.execute interrupted .captured) {} =
      (.ok { code := 3, exit := some 3 }, t) := ⟨_, rfl⟩
  rcases hrun with ⟨t, hrun⟩
  exact ⟨vs, t, course, hrun, (answer.exit _ t 3 hrun).1.1 rfl⟩

end LineShell
