import LineShell.Proofs.Execution

/-!
# Fates — the ways in which a stage can end

A stage is expanded, its targets are opened, and its command runs. Each of these steps can be the
last one. This file names the ways in which that happens, and shows that there are no others.

* `Stage.parts` — what is expanded for a stage, in order, as one word;
* `expandWord_eq_error_iff` — an expansion breaks off at a substitution and nowhere else;
* `openAll_connects` — which streams of a stage end up at which files;
* `Fate` — the ways, with what the command read and wrote and what the shell says about it;
* `runCommand_cases` — what a command comes to;
* `runOn_runStage_of_failed`, `runOn_runStage_of_opened` — what a stage does once it is expanded;
* `Visit.Runs.cases` — a stage meets one of the fates, or it ends the whole line.
-/

namespace LineShell

/-! ## The words of a stage -/

namespace Stage

/-- All parts of the words of a command, in the order in which they are expanded. -/
def parts (c : Command) : Word :=
  c.name ++ c.args.flatten ++ (c.redirections.map Redirection.target).flatten

/-- A command gives a stream a target of its own. -/
def Redirects {W : Type} (c : Stage W) (role : Role) : Prop :=
  ∃ r ∈ c.redirections, r.role = role

instance {W : Type} (c : Stage W) (role : Role) : Decidable (c.Redirects role) :=
  inferInstanceAs (Decidable (∃ r ∈ c.redirections, r.role = role))

end Stage

/-- What a redirection replaces, and whether writing goes to the end. -/
def Redirection.mark {W : Type} (r : Redirection W) : Role × Bool :=
  (r.role, r.append)

section Expansion

variable {sub : Substitution} {wiring : Wiring} {err err' : Sink} {s t u : Session} {e : Error}

/-- A word is expanded part by part, with the errors handed on. -/
theorem expandWord_append (err : Sink) (v w : Word) :
    expandWord sub wiring err (v ++ w) = (do
      let (front, err) ← expandWord sub wiring err v
      let (back, err) ← expandWord sub wiring err w
      return (front ++ back, err)) := by
  induction v generalizing err with
  | nil => simp [expandWord]
  | cons p v ih =>
      simp only [List.cons_append, expandWord, ih, bind_assoc, pure_bind, String.append_assoc]

/-! Which text a word becomes does not matter for what happens on the way: the error sink, the
session and the error are those of all parts one after the other. -/

/-- The errors of a word are those of its parts in turn. -/
theorem snd_expandWord_append (err : Sink) (v w : Word) :
    Prod.snd <$> expandWord sub wiring err (v ++ w) =
      (Prod.snd <$> expandWord sub wiring err v) >>= fun err =>
        Prod.snd <$> expandWord sub wiring err w := by
  rw [expandWord_append]
  simp only [map_eq_pure_bind, bind_assoc, pure_bind]

/-- Where words are cut makes no difference to their errors. -/
theorem snd_expandWords (err : Sink) (ws : List Word) :
    Prod.snd <$> expandWords sub wiring err ws =
      Prod.snd <$> expandWord sub wiring err ws.flatten := by
  induction ws generalizing err with
  | nil => simp [expandWords, expandWord]
  | cons w ws ih =>
      rw [List.flatten_cons, snd_expandWord_append]
      simp only [← ih, expandWords, map_eq_pure_bind, bind_assoc, pure_bind]

/-- The targets of redirections are expanded as one word would be, as far as errors go. -/
theorem snd_expandTargets (err : Sink) (rs : List (Redirection Word)) :
    Prod.snd <$> expandTargets sub wiring err rs =
      Prod.snd <$> expandWord sub wiring err (rs.map Redirection.target).flatten := by
  induction rs generalizing err with
  | nil => simp [expandTargets, expandWord]
  | cons r rs ih =>
      rw [List.map_cons, List.flatten_cons, snd_expandWord_append]
      simp only [← ih, expandTargets, map_eq_pure_bind, bind_assoc, pure_bind]

/-- A stage is expanded as the word of all its parts would be, as far as errors go. -/
theorem snd_expandStage (err : Sink) (c : Command) :
    Prod.snd <$> expandStage sub wiring err c = Prod.snd <$> expandWord sub wiring err c.parts := by
  rw [Stage.parts, List.append_assoc, snd_expandWord_append]
  simp only [snd_expandWord_append, ← snd_expandTargets]
  simp only [← snd_expandWords]
  simp only [expandStage, map_eq_pure_bind, bind_assoc, pure_bind]

theorem expandStage_eq_ok {c : Command} {stage : Stage String}
    (h : runOn (expandStage sub wiring err c) s = (.ok (stage, err'), t)) :
    ∃ text, runOn (expandWord sub wiring err c.parts) s = (.ok (text, err'), t) := by
  have hsame := congrArg (fun x => runOn x s) (@snd_expandStage sub wiring err c)
  simp only [runOn_map, h] at hsame
  rcases hw : runOn (expandWord sub wiring err c.parts) s with ⟨r, t'⟩
  rw [hw] at hsame
  cases r with
  | error e => simp [Except.map] at hsame
  | ok w =>
      simp only [Except.map, Prod.mk.injEq, Except.ok.injEq] at hsame
      exact ⟨w.1, by rw [hsame.1, hsame.2]⟩

/-- A stage fails to expand where the word of all its parts does. -/
theorem expandStage_eq_error_iff {c : Command} :
    runOn (expandStage sub wiring err c) s = (.error e, t) ↔
      runOn (expandWord sub wiring err c.parts) s = (.error e, t) := by
  have hsame := congrArg (fun x => runOn x s) (@snd_expandStage sub wiring err c)
  simp only [runOn_map] at hsame
  rcases hstage : runOn (expandStage sub wiring err c) s with ⟨r, u⟩
  rcases hword : runOn (expandWord sub wiring err c.parts) s with ⟨r', u'⟩
  rw [hstage, hword] at hsame
  cases r <;> cases r' <;> simp_all [Except.map]

/-- Redirections keep their roles and their ways of writing when their targets become texts. -/
theorem expandTargets_marks {rs : List (Redirection Word)}
    {targets : List (Redirection String) × Sink}
    (h : runOn (expandTargets sub wiring err rs) s = (.ok targets, t)) :
    targets.1.map Redirection.mark = rs.map Redirection.mark := by
  induction rs generalizing err s t targets with
  | nil =>
      simp only [expandTargets, runOn_pure, Prod.mk.injEq, Except.ok.injEq] at h
      rw [← h.1]
      rfl
  | cons r rs ih =>
      simp only [expandTargets, runOn_bind_eq_ok_iff, runOn_pure] at h
      rcases h with ⟨target, s₁, -, tail, s₂, htail, heq⟩
      simp only [Prod.mk.injEq, Except.ok.injEq] at heq
      rw [← heq.1, List.map_cons, List.map_cons, ih htail]
      rfl

/-- Expansion keeps roles and modes of the redirections. -/
theorem expandStage_marks {c : Command} {stage : Stage String}
    (h : runOn (expandStage sub wiring err c) s = (.ok (stage, err'), t)) :
    stage.redirections.map Redirection.mark = c.redirections.map Redirection.mark := by
  simp only [expandStage, runOn_bind_eq_ok_iff, runOn_pure] at h
  rcases h with ⟨name, s₁, -, args, s₂, -, targets, s₃, htargets, heq⟩
  simp only [Prod.mk.injEq, Except.ok.injEq] at heq
  rw [← heq.1.1]
  exact expandTargets_marks htargets

/-- Expansion neither adds nor takes a redirection. -/
theorem expandStage_redirects {c : Command} {stage : Stage String}
    (h : runOn (expandStage sub wiring err c) s = (.ok (stage, err'), t)) (role : Role) :
    stage.Redirects role ↔ c.Redirects role := by
  have hmem : role ∈ (stage.redirections.map Redirection.mark).map Prod.fst ↔
      role ∈ (c.redirections.map Redirection.mark).map Prod.fst := by rw [expandStage_marks h]
  simpa only [List.map_map, List.mem_map, Function.comp_apply, Redirection.mark, Stage.Redirects]
    using hmem

/-- Only a substitution can end an expansion with an error: texts and variables always have a
value. -/
theorem expandWord_eq_error_iff {w : Word} :
    runOn (expandWord sub wiring err w) s = (.error e, u) ↔
      ∃ front q back text err' t, w = front ++ .substitution q :: back ∧
        runOn (expandWord sub wiring err front) s = (.ok (text, err'), t) ∧
        runOn (sub q wiring err') t = (.error e, u) := by
  constructor
  · intro h
    induction w generalizing err s with
    | nil => simp [expandWord] at h
    | cons part rest ih =>
        simp only [expandWord, runOn_bind_eq_error_iff] at h
        rcases h with hpart | ⟨first, s₁, hfirst, hrest | ⟨tail, s₂, -, hpure⟩⟩
        · cases part with
          | text _ => simp [expandPart] at hpart
          | var _ => simp [expandPart, runOn_bind, runOn_map, Except.map] at hpart
          | substitution q => exact ⟨[], q, rest, "", err, s, rfl, rfl, hpart⟩
        · rcases ih hrest with ⟨front, q, back, text, err', t, rfl, hfront, hq⟩
          -- What comes before the substitution starts with the part that was expanded.
          refine ⟨part :: front, q, back, first.1 ++ text, err', t, rfl, ?_, hq⟩
          rw [expandWord, runOn_bind_of_ok hfirst, runOn_bind_of_ok hfront]
          rfl
        · simp at hpure
  · rintro ⟨front, q, back, text, err', t, rfl, hfront, hq⟩
    rw [expandWord_append, runOn_bind_of_ok hfront]
    refine runOn_bind_of_error ?_
    rw [expandWord]
    exact runOn_bind_of_error hq

end Expansion

/-! ## The files of a stage -/

namespace StageFiles

/-- Where the output of a command goes: to its file, or else to the sink of the stage. -/
def outOr (files : StageFiles) (out : Sink) : Sink :=
  (files.stdout.map Sink.file).getD out

def errOr (files : StageFiles) (err : Sink) : Sink :=
  (files.stderr.map Sink.file).getD err

/-- The file of a stream. -/
def ofRole (files : StageFiles) : Role → Option Handle
  | .stdin => files.stdin
  | .stdout => files.stdout
  | .stderr => files.stderr
  | .descriptor _ => none

/-- Connecting a handle changes the file of its own role only. -/
theorem ofRole_connect (files : StageFiles) (handle : Handle) (role role' : Role) :
    (files.connect handle role').ofRole role =
      if role' = role ∧ role.rank < 3 then some handle else files.ofRole role := by
  cases role <;> cases role' <;> simp [connect, ofRole, Role.rank]

end StageFiles

/-- A target that is opened is opened on the disk as it is, seen from the working directory. -/
theorem openOne_cases (files : StageFiles) (r : Redirection String) (s : Session) :
    (∃ fault, s.scene.host.disk.openFor r.role r.append (Path.resolve s.scene.cwd r.target) =
        .error fault ∧
      runOn (openOne files r) s = (.ok (.error ⟨r.target, fault⟩), s)) ∨
    (∃ disk handle t,
      s.scene.host.disk.openFor r.role r.append (Path.resolve s.scene.cwd r.target) =
        .ok (disk, handle) ∧
      runOn (openOne files r) s = (.ok (.ok (files.connect handle r.role)), t)) := by
  simp only [openOne, runOn_bind, runOn_get]
  cases s.scene.host.disk.openFor r.role r.append (Path.resolve s.scene.cwd r.target) with
  | error fault => exact .inl ⟨fault, rfl, rfl⟩
  | ok opened =>
      rcases opened with ⟨disk, handle⟩
      refine .inr ⟨disk, handle, ?_⟩
      simp only [runOn_bind, runOn_set, runOn_note]
      cases r.role <;> exact ⟨_, trivial, rfl⟩

/-- Targets that cannot be opened are values, not errors. -/
theorem openAll_ne_error (files : StageFiles) (rs : List (Redirection String)) (s t : Session)
    (e : Error) : runOn (openAll files rs) s ≠ (.error e, t) := by
  induction rs generalizing files s with
  | nil => simp [openAll]
  | cons r rs ih =>
      rw [openAll]
      rcases openOne_cases files r s with ⟨fault, -, hone⟩ | ⟨disk, handle, t', -, hone⟩
      · rw [runOn_bind_of_ok hone]
        simp
      · rw [runOn_bind_of_ok hone]
        exact ih _ _

/-- The file of a stream is that of a redirection of the stream, opened when all before it were. A
stream without a redirection keeps the file it had. -/
theorem openAll_connects {files files' : StageFiles} {rs : List (Redirection String)}
    {s t : Session} (h : runOn (openAll files rs) s = (.ok (.ok files'), t)) {role : Role}
    (hrole : role.rank < 3) :
    ((∀ r ∈ rs, r.role ≠ role) ∧ files'.ofRole role = files.ofRole role) ∨
    ∃ front r back opened u disk handle, rs = front ++ r :: back ∧ r.role = role ∧
      runOn (openAll files front) s = (.ok (.ok opened), u) ∧
      u.scene.host.disk.openFor role r.append (Path.resolve u.scene.cwd r.target) =
        .ok (disk, handle) ∧
      files'.ofRole role = some handle := by
  -- The last redirection with the role is the one that counts, so the later ones are asked first.
  induction rs generalizing files s with
  | nil =>
      simp only [openAll, runOn_pure, Prod.mk.injEq, Except.ok.injEq] at h
      exact .inl ⟨by simp, by rw [h.1]⟩
  | cons r rs ih =>
      rw [openAll] at h
      rcases openOne_cases files r s with ⟨fault, -, hone⟩ | ⟨disk, handle, t', hopen, hone⟩
      · rw [runOn_bind_of_ok hone] at h
        simp at h
      · rw [runOn_bind_of_ok hone] at h
        rcases ih h with ⟨hnone, hfile⟩ | ⟨front, r', back, opened, u, disk', handle', rfl, hr',
          hfront, hat, hfile⟩
        · -- No later redirection has this role, so it is this one or none.
          rw [StageFiles.ofRole_connect] at hfile
          by_cases hr : r.role = role
          · rw [if_pos ⟨hr, hrole⟩] at hfile
            subst hr
            exact .inr ⟨[], r, rs, files, s, disk, handle, rfl, rfl, rfl, hopen, hfile⟩
          · rw [if_neg (by simp [hr])] at hfile
            refine .inl ⟨?_, hfile⟩
            simpa [hr] using hnone
        · refine .inr ⟨r :: front, r', back, opened, u, disk', handle', rfl, hr', ?_, hat, hfile⟩
          rw [openAll, runOn_bind_of_ok hone]
          exact hfront

/-- A stream has a file if and only if it is redirected. -/
theorem openAll_isSome_iff {stage : Stage String} {files : StageFiles} {s t : Session}
    (h : runOn (openAll {} stage.redirections) s = (.ok (.ok files), t)) {role : Role}
    (hrole : role.rank < 3) : (files.ofRole role).isSome ↔ stage.Redirects role := by
  have hbare : ({} : StageFiles).ofRole role = none := by cases role <;> rfl
  rcases openAll_connects h hrole with ⟨hnone, hfile⟩ |
    ⟨front, r, back, _, _, _, handle, hrs, hr, -, -, hfile⟩
  · rw [hfile, hbare]
    simpa [Stage.Redirects] using hnone
  · rw [hfile]
    simp only [Option.isSome_some, true_iff]
    exact ⟨r, by simp [hrs], hr⟩

/-! ## Fates -/

/-- How a stage came to its end. -/
inductive Fate where
  /-- One of its expansions failed. -/
  | unexpanded
  /-- One of its targets could not be opened. -/
  | unopened (failure : OpenFailure)
  /-- Its name is empty, and there is no command. -/
  | nameless
  /-- A builtin got `stdin` to read, answered, and left its output in `out`. -/
  | builtin (name : String) (args : List String) (stdin : Option Bytes)
      (answer : Except Error Completion) (out : Sink)
  /-- Its program could not be started. -/
  | unstarted (name : String) (fault : Fault)
  /-- Its program got `feed` to read, and was stopped because it took too long. -/
  | stopped (name : String) (feed : Feed)
  /-- Its program got `feed` to read, ended, and wrote `bytes` if its output was a pipe. -/
  | ran (name : String) (feed : Feed) (ending : Ending) (bytes : Bytes)

namespace Fate

/-- What the pipeline learns. -/
def outcome : Fate → Outcome
  | unexpanded => .finished 1
  | unopened _ => .aborted 1
  | nameless => .finished 0
  | builtin _ _ _ (.ok (.code n)) _ => .finished n
  | builtin _ _ _ (.ok (.exit n)) _ => .exited n
  | builtin _ _ _ (.error _) _ => .finished 1
  | unstarted _ _ => .finished notStartedCode
  | stopped _ _ => .finished timedOutCode
  | ran _ _ ending _ => .finished ending.status

/-- The bytes that a command left in a pipe. Those of a program that was stopped are lost. -/
def written : Fate → Bytes
  | builtin _ _ _ _ out => out.held
  | ran _ _ _ bytes => bytes
  | _ => []

/-- What the shell itself says about the end of a stage. -/
def complaint : Fate → Option String
  | unopened failure =>
      let e := Error.redirect failure.target failure.fault
      some s!"minsh: {e.message}"
  | builtin name _ _ (.error e) _ => some s!"{name}: {e.message}"
  | unstarted name fault => some s!"minsh: {name}: {startMessage fault}"
  | stopped name _ => some s!"minsh: {name}: timed out"
  | _ => none

end Fate

/-- A sink before and after the shell has said something, or nothing. -/
def Sink.Hears (before : Sink) (text : Option String) (after : Sink) : Prop :=
  match text with
  | none => after = before
  | some text => ∃ s t, runOn (Exec.report before text) s = (.ok after, t)

/-- What a stage leaves behind: sinks that were replaced by files are as they were. -/
def StageFiles.settle (files : StageFiles) (out err : Sink) (ended : Ended) : Ended :=
  ⟨ended.outcome, if files.stdout.isSome then out else ended.out,
    if files.stderr.isSome then err else ended.err⟩

/-- The last step of a command with a given fate: what the shell has to say about it is written to
`err`, and if that fails then the line ends. -/
def Concludes (x : Exec Ended) (s : Session) (fate : Fate) (out err : Sink) : Prop :=
  (∃ err' t, err.Hears fate.complaint err' ∧ runOn x s = (.ok ⟨fate.outcome, out, err'⟩, t)) ∨
  ∃ text u e t, runOn (Exec.report err text) u = (.error e, t) ∧ runOn x s = (.error e, t)

theorem concludes_of_report {x : Exec Ended} {s u : Session} {fate : Fate} {out err : Sink}
    {text : String} (htext : fate.complaint = some text)
    (h : runOn x s = runOn (do
      let err ← Exec.report err text
      return ⟨fate.outcome, out, err⟩) u) : Concludes x s fate out err := by
  rcases hreport : runOn (Exec.report err text) u with ⟨e | err', t⟩
  · exact .inr ⟨text, u, e, t, hreport, by rw [h, runOn_bind_of_error hreport]⟩
  · refine .inl ⟨err', t, ?_, by rw [h, runOn_bind_of_ok hreport]; rfl⟩
    rw [htext]
    exact ⟨u, t, hreport⟩

/-- A conclusion is heard, or its complaint cannot be written. -/
theorem Concludes.cases {x : Exec Ended} {s t : Session} {fate : Fate} {out err : Sink}
    {r : Except Error Ended} (h : Concludes x s fate out err) (hrun : runOn x s = (r, t)) :
    (∃ err', err.Hears fate.complaint err' ∧ r = .ok ⟨fate.outcome, out, err'⟩) ∨
    ∃ text u e, runOn (Exec.report err text) u = (.error e, t) ∧ r = .error e := by
  rcases h with ⟨err', t', heard, hx⟩ | ⟨text, u, e, t', hreport, hx⟩
  · rw [hx] at hrun
    simp only [Prod.mk.injEq] at hrun
    exact .inl ⟨err', heard, hrun.1.symm⟩
  · rw [hx] at hrun
    simp only [Prod.mk.injEq] at hrun
    exact .inr ⟨text, u, e, by rw [hreport, hrun.2], hrun.1.symm⟩

/-! ## Commands -/

/-- How the command of a stage can end once its files are open, and its two sinks after that. -/
inductive Commanded (stage : Stage String) (files : StageFiles) (input : Input) (out err : Sink)
    (s : Session) : Fate → Sink → Sink → Prop where
  | builtin {b : Builtin} {stdin : Option Bytes} {answer : Except Error Completion} {desk : Desk}
      (found : s.table.lookup stage.name = some b)
      (fed : runOn (builtinInput files.stdin input) s = (.ok stdin, s))
      (answered : runOn (b stage.args stdin) ⟨s.scene, out.handedOut, err.handedOut⟩ =
        (answer, desk)) :
      Commanded stage files input out err s (.builtin stage.name stage.args stdin answer desk.out)
        (out.receive desk.out) (err.receive desk.err)
  | unstarted {fault : StartFault}
      (absent : s.table.lookup stage.name = none)
      (failed : s.start stage.name stage.args (programInput files.stdin input) out err =
        .error fault) :
      Commanded stage files input out err s (.unstarted stage.name fault.toFault) out err
  | stopped {left : Departure} {limit : Duration}
      (absent : s.table.lookup stage.name = none)
      (started : s.start stage.name stage.args (programInput files.stdin input) out err = .ok left)
      (late : left.ending = .overtime) (limited : s.limits.timeout = some limit) :
      Commanded stage files input out err s
        (.stopped stage.name (programInput files.stdin input))
        (out.afterStop (out.after left.out)) (err.afterStop (err.after left.err))
  | ran {left : Departure}
      (absent : s.table.lookup stage.name = none)
      (started : s.start stage.name stage.args (programInput files.stdin input) out err = .ok left)
      (unstopped : left.ending = .overtime → s.limits.timeout = none) :
      Commanded stage files input out err s
        (.ran stage.name (programInput files.stdin input) left.ending left.out.bytes)
        (out.after left.out) (err.after left.err)

section Commands

variable {stage : Stage String} {files : StageFiles} {input : Input} {out err : Sink}
  {s t : Session} {ended : Ended} {e : Error}

/-- Reading its input does not change the session, and fails only if the file cannot be read. -/
theorem builtinInput_cases (file : Option Handle) (input : Input) (s : Session) :
    (∃ stdin, runOn (builtinInput file input) s = (.ok stdin, s)) ∨
    ∃ handle fault, file = some handle ∧ s.scene.host.disk.readAll handle = .error fault ∧
      runOn (builtinInput file input) s = (.error (.stream fault), s) := by
  rcases file with _ | handle
  · cases input <;> exact .inl ⟨_, rfl⟩
  · simp only [builtinInput, runOn_bind, runOn_get]
    cases hread : s.scene.host.disk.readAll handle with
    | ok bytes => exact .inl ⟨some bytes, rfl⟩
    | error fault => exact .inr ⟨handle, fault, rfl, hread, rfl⟩

/-- A builtin answers, and what it throws is reported. -/
theorem runBuiltin_concludes {b : Builtin} {name : String} {args : List String}
    {stdin : Option Bytes} {answer : Except Error Completion} {desk : Desk}
    (h : runOn (b args stdin) ⟨s.scene, out.handedOut, err.handedOut⟩ = (answer, desk)) :
    Concludes (runBuiltin b name args stdin out err) s (.builtin name args stdin answer desk.out)
      (out.receive desk.out) (err.receive desk.err) := by
  have hrun := runOn_runBuiltin b name args stdin out err s
  rw [h] at hrun
  rcases answer with e | (n | n)
  · exact concludes_of_report rfl hrun
  · exact .inl ⟨_, _, rfl, hrun⟩
  · exact .inl ⟨_, _, rfl, hrun⟩

/-- Noting unread input cannot fail. -/
theorem noteUnread_eq_ok (input : Feed) (unread : Option Int) (s : Session) :
    ∃ t, runOn (noteUnread input unread) s = (.ok (), t) := by
  unfold noteUnread
  split <;> exact ⟨_, rfl⟩

/-- A program cannot be started, or is stopped, or ends. -/
theorem runProgram_concludes (absent : s.table.lookup stage.name = none) :
    ∃ fate out' err', Commanded stage files input out err s fate out' err' ∧
      Concludes (runProgram stage.name stage.args (programInput files.stdin input) out err) s fate
        out' err' := by
  have hrun : runOn (runProgram stage.name stage.args (programInput files.stdin input) out err) s =
    _ :=
    runOn_bind_of_ok (runOn_get s)
  rw [runOn_bind_of_ok (runOn_note _ s), runOn_bind_of_ok (runOn_modify _ _)] at hrun
  cases hstart : s.start stage.name stage.args (programInput files.stdin input) out err with
  | error fault =>
      simp only [hstart] at hrun
      rw [runOn_bind_of_ok (runOn_note _ _)] at hrun
      exact ⟨_, _, _, .unstarted absent hstart, concludes_of_report rfl hrun⟩
  | ok left =>
      simp only [hstart] at hrun
      rcases noteUnread_eq_ok (programInput files.stdin input) left.unread
        ((s.noting (.spawning stage.name stage.args.length)).launching.withHost
          (s.scene.host.after left)) with ⟨u, hu⟩
      rw [runOn_bind_of_ok (runOn_modify _ _), runOn_bind_of_ok hu] at hrun
      split at hrun
      case h_1 limit hover hlimit =>
        rw [runOn_bind_of_ok (runOn_note _ _)] at hrun
        exact ⟨_, _, _, .stopped absent hstart hover hlimit, concludes_of_report rfl hrun⟩
      case h_2 hnever =>
        rw [runOn_bind_of_ok (runOn_note _ _)] at hrun
        refine ⟨_, _, _, .ran absent hstart ?_, .inl ⟨_, _, rfl, hrun⟩⟩
        -- A program that took too long is stopped only if there is a limit.
        intro hover
        cases hlimit : s.limits.timeout with
        | none => rfl
        | some limit => exact (hnever limit hover hlimit).elim

/-- The command of a stage meets a fate, unless it is a builtin that is to read an unreadable
file. -/
theorem runCommand_cases (stage : Stage String) (files : StageFiles) (input : Input)
    (out err : Sink) (s : Session) :
    (∃ b handle fault, s.table.lookup stage.name = some b ∧ files.stdin = some handle ∧
      s.scene.host.disk.readAll handle = .error fault ∧
      runOn (runCommand stage files input out err) s = (.error (.stream fault), s)) ∨
    ∃ x fate out' err',
      Commanded stage files input (files.outOr out) (files.errOr err) s fate out' err' ∧
      Concludes x s fate out' err' ∧
      runOn (runCommand stage files input out err) s = runOn (files.settle out err <$> x) s := by
  have hrun : runOn (runCommand stage files input out err) s = _ := runOn_bind_of_ok (runOn_get s)
  -- What the table knows is a builtin, which reads its input first; all else is a program.
  cases hlookup : s.table.lookup stage.name with
  | none =>
      rw [hlookup] at hrun
      rcases @runProgram_concludes stage files input (files.outOr out) (files.errOr err) s hlookup
        with ⟨fate, out', err', hfate, hend⟩
      refine .inr ⟨_, fate, out', err', hfate, hend, ?_⟩
      rw [map_eq_pure_bind]
      exact hrun
  | some b =>
      rw [hlookup] at hrun
      rcases builtinInput_cases files.stdin input s with ⟨stdin, hin⟩ |
        ⟨handle, fault, hfile, hread, hin⟩
      · rcases hanswer : runOn (b stage.args stdin)
          ⟨s.scene, (files.outOr out).handedOut, (files.errOr err).handedOut⟩ with ⟨answer, desk⟩
        refine .inr ⟨_, _, _, _, .builtin hlookup hin hanswer, runBuiltin_concludes hanswer, ?_⟩
        rw [map_eq_pure_bind]
        exact hrun.trans (runOn_bind_of_ok hin)
      · exact .inl ⟨b, handle, fault, rfl, hfile, hread, hrun.trans (runOn_bind_of_error hin)⟩

end Commands

/-! ## Stages -/

/-- A stage of a pipeline on its way: what it was given, and what came of it. -/
structure Visit where
  command : Command
  input : Input
  out : Sink
  err : Sink
  before : Session
  result : Except Error Ended
  after : Session

namespace Visit

variable (sub : Substitution) (wiring : Wiring) (v : Visit)

def Runs : Prop :=
  runOn (runStage sub wiring v.command v.input v.out v.err) v.before = (v.result, v.after)

/-- The words of the stage have become texts; `err` and `t` are the error sink and the session
then. -/
def Expanded (stage : Stage String) (err : Sink) (t : Session) : Prop :=
  runOn (expandStage sub wiring v.err v.command) v.before = (.ok (stage, err), t)

/-- No expansion failed, and the targets of the stage are open, so that its command can run. -/
def Ready (stage : Stage String) (files : StageFiles) (err : Sink) (t : Session) : Prop :=
  ∃ u, v.Expanded sub wiring stage err u ∧ u.expansionFailed = false ∧
    runOn (openAll {} stage.redirections) u = (.ok (.ok files), t)

end Visit

def Session.starting (s : Session) (stage : Stage String) : Session :=
  s.noting (.runningCommand (Log.sanitize stage.name) stage.args.length stage.redirections.length)

/-- How a stage can come to its end, and what it leaves behind. -/
inductive Visit.Meets (sub : Substitution) (wiring : Wiring) (v : Visit) : Fate → Ended → Prop where
  | unexpanded {stage : Stage String} {err : Sink} {t : Session}
      (expanded : v.Expanded sub wiring stage err t) (failed : t.expansionFailed = true) :
      Meets sub wiring v .unexpanded ⟨.finished 1, v.out, err⟩
  | unopened {stage : Stage String} {err err' : Sink} {t u : Session} {failure : OpenFailure}
      (expanded : v.Expanded sub wiring stage err t) (sound : t.expansionFailed = false)
      (failed : runOn (openAll {} stage.redirections) t = (.ok (.error failure), u))
      (heard : err.Hears (Fate.unopened failure).complaint err') :
      Meets sub wiring v (.unopened failure) ⟨.aborted 1, v.out, err'⟩
  | nameless {stage : Stage String} {files : StageFiles} {err : Sink} {t : Session}
      (ready : v.Ready sub wiring stage files err t) (empty : stage.name.isEmpty = true) :
      Meets sub wiring v .nameless ⟨.finished 0, v.out, err⟩
  | command {stage : Stage String} {files : StageFiles} {err out' err' err'' : Sink} {t : Session}
      {fate : Fate} (ready : v.Ready sub wiring stage files err t)
      (named : stage.name.isEmpty = false)
      (ends : Commanded stage files v.input (files.outOr v.out) (files.errOr err) (t.starting stage)
        fate out' err')
      (heard : err'.Hears fate.complaint err'') :
      Meets sub wiring v fate (files.settle v.out err ⟨fate.outcome, out', err''⟩)

/-- The stage is a builtin that is to read a file which was opened for it and cannot be read. -/
def Visit.Unreadable (sub : Substitution) (wiring : Wiring) (v : Visit) (fault : Fault) : Prop :=
  ∃ stage files err t b handle, v.Ready sub wiring stage files err t ∧
    stage.name.isEmpty = false ∧ t.table.lookup stage.name = some b ∧
    files.stdin = some handle ∧ t.scene.host.disk.readAll handle = .error fault

/-- What the shell has to say about the end of the stage cannot be written. -/
def Visit.Unheard (sub : Substitution) (wiring : Wiring) (v : Visit) (e : Error) : Prop :=
  (∃ stage err t text u, v.Expanded sub wiring stage err t ∧
    runOn (Exec.report err text) u = (.error e, v.after)) ∨
  ∃ stage files err t fate out' err' text u, v.Ready sub wiring stage files err t ∧
    Commanded stage files v.input (files.outOr v.out) (files.errOr err) (t.starting stage)
      fate out' err' ∧
    runOn (Exec.report err' text) u = (.error e, v.after)

section Stages

variable {sub : Substitution} {wiring : Wiring} {v : Visit}

/-- A stage that is ready has the frame it began with. -/
theorem Visit.Ready.frame_eq (hsub : sub.KeepsFrame) {stage : Stage String} {files : StageFiles}
    {err : Sink} {t : Session} (ready : v.Ready sub wiring stage files err t) :
    t.frame = v.before.frame := by
  rcases ready with ⟨u, hexp, -, hopen⟩
  exact ((openAll_keeps_ledger _ _).frame.eq hopen).trans
    ((expandStage_keeps_frame hsub wiring _ _).eq hexp)

/-- A command that may run meets its fate, unless it cannot read its file or cannot be heard. -/
theorem Visit.Ready.cases {stage : Stage String} {files : StageFiles} {err : Sink} {t : Session}
    (ready : v.Ready sub wiring stage files err t) (named : stage.name.isEmpty = false)
    (h : runOn (runCommand stage files v.input v.out err) (t.starting stage) =
    (v.result, v.after)) :
    (∃ fate ended, v.Meets sub wiring fate ended ∧ v.result = .ok ended) ∨
    (∃ fault, v.Unreadable sub wiring fault ∧ v.result = .error (.stream fault)) ∨
    ∃ e, v.Unheard sub wiring e ∧ v.result = .error e := by
  rcases runCommand_cases stage files v.input v.out err (t.starting stage) with
    ⟨b, handle, fault, hb, hfile, hread, hrun⟩ | ⟨x, fate, out', err', hfate, hend, hrun⟩
  · rw [hrun] at h
    simp only [Prod.mk.injEq] at h
    exact .inr (.inl ⟨fault, ⟨stage, files, err, t, b, handle, ready, named, hb, hfile, hread⟩,
      h.1.symm⟩)
  · rcases hx : runOn x (t.starting stage) with ⟨r, u⟩
    rw [hrun, runOn_map, hx] at h
    simp only [Prod.mk.injEq] at h
    rcases hend.cases hx with ⟨err'', heard, rfl⟩ | ⟨text, u', e, hreport, rfl⟩
    · exact .inl ⟨fate, _, .command ready named hfate heard, h.1.symm⟩
    · rw [h.2] at hreport
      exact .inr (.inr ⟨e,
        .inr ⟨stage, files, err, t, fate, out', err', text, u', ready, hfate, hreport⟩, h.1.symm⟩)

/-- A stage with an expansion that failed fails itself, and puts the flag down. -/
theorem runOn_runStage_of_failed {command : Command} {input : Input} {out err err' : Sink}
    {stage : Stage String} {s t : Session}
    (hexp : runOn (expandStage sub wiring err command) s = (.ok (stage, err'), t))
    (hflag : t.expansionFailed = true) :
    runOn (runStage sub wiring command input out err) s =
      (.ok ⟨.finished 1, out, err'⟩, { t with expansionFailed := false }) := by
  rw [runStage, runOn_bind_of_ok hexp]
  dsimp only
  rw [runOn_bind_of_ok (runOn_get t)]
  simp only [hflag, if_true]
  rw [runOn_bind_of_ok (runOn_modify _ _)]
  rfl

/-- A stage whose expansions did not fail opens its targets. It reports the one that cannot be
opened, or it runs its command, if it has a name. -/
theorem runOn_runStage_of_opened {command : Command} {input : Input} {out err err' : Sink}
    {stage : Stage String} {s t u : Session} {opened : Except OpenFailure StageFiles}
    (hexp : runOn (expandStage sub wiring err command) s = (.ok (stage, err'), t))
    (hflag : t.expansionFailed = false)
    (hopen : runOn (openAll {} stage.redirections) t = (.ok opened, u)) :
    runOn (runStage sub wiring command input out err) s =
      match opened with
      | .error failure =>
          runOn (do
            let err ← Exec.report err'
              s!"minsh: {(Error.redirect failure.target failure.fault).message}"
            return ⟨.aborted 1, out, err⟩) u
      | .ok files =>
          if stage.name.isEmpty then (.ok ⟨.finished 0, out, err'⟩, u)
          else runOn (runCommand stage files input out err') (u.starting stage) := by
  rw [runStage, runOn_bind_of_ok hexp]
  dsimp only
  rw [runOn_bind_of_ok (runOn_get t)]
  simp only [hflag, Bool.false_eq_true, if_false]
  rw [runOn_bind_of_ok hopen]
  cases opened with
  | error failure => rfl
  | ok files =>
      dsimp only
      split
      · rfl
      · rw [runOn_bind_of_ok (runOn_note _ _)]
        rfl

/-- What is left to do for a stage that is ready is to run its command. -/
theorem Visit.Runs.command (hrun : v.Runs sub wiring) {stage : Stage String} {files : StageFiles}
    {err : Sink} {t : Session} (ready : v.Ready sub wiring stage files err t)
    (named : stage.name.isEmpty = false) :
    runOn (runCommand stage files v.input v.out err) (t.starting stage) = (v.result, v.after) := by
  rcases ready with ⟨u, hexp, hflag, hopen⟩
  unfold Visit.Runs at hrun
  rw [runOn_runStage_of_opened hexp hflag hopen] at hrun
  simpa only [named, Bool.false_eq_true, if_false] using hrun

/-- There is no other way to end: a stage meets a fate, or it ends the line because an expansion
does, because a builtin cannot read its file, or because a report cannot be written. -/
theorem Visit.Runs.cases (h : v.Runs sub wiring) :
    (∃ e, runOn (expandStage sub wiring v.err v.command) v.before = (.error e, v.after) ∧
      v.result = .error e) ∨
    (∃ fate ended, v.Meets sub wiring fate ended ∧ v.result = .ok ended) ∨
    (∃ fault, v.Unreadable sub wiring fault ∧ v.result = .error (.stream fault)) ∨
    ∃ e, v.Unheard sub wiring e ∧ v.result = .error e := by
  unfold Visit.Runs at h
  rcases hexp : runOn (expandStage sub wiring v.err v.command) v.before with ⟨e | ⟨stage, err⟩, t⟩
  · rw [runStage, runOn_bind_of_error hexp] at h
    simp only [Prod.mk.injEq] at h
    exact .inl ⟨e, by rw [h.2], h.1.symm⟩
  refine .inr ?_
  -- The flag is looked at before anything is opened.
  cases hflag : t.expansionFailed with
  | true =>
      rw [runOn_runStage_of_failed hexp hflag, Prod.mk.injEq] at h
      exact .inl ⟨_, _, .unexpanded hexp hflag, h.1.symm⟩
  | false =>
      rcases hopen : runOn (openAll {} stage.redirections) t with ⟨e | opened, u⟩
      · exact (openAll_ne_error _ _ _ _ _ hopen).elim
      rw [runOn_runStage_of_opened hexp hflag hopen] at h
      cases opened with
      | error failure =>
          have hend := @concludes_of_report _ u u (.unopened failure) v.out err _ rfl rfl
          rcases hend.cases h with ⟨err', heard, hr⟩ | ⟨text, u', e, hreport, hr⟩
          · exact .inl ⟨_, _, .unopened hexp hflag hopen heard, hr⟩
          · exact .inr (.inr ⟨e, .inl ⟨stage, err, t, text, u', hexp, hreport⟩, hr⟩)
      | ok files =>
          have hready : v.Ready sub wiring stage files err u := ⟨t, hexp, hflag, hopen⟩
          dsimp only at h
          cases hname : stage.name.isEmpty with
          | true =>
              rw [if_pos hname, Prod.mk.injEq] at h
              exact .inl ⟨_, _, .nameless hready hname, h.1.symm⟩
          | false =>
              rw [hname, if_neg Bool.false_ne_true] at h
              exact hready.cases hname h

/-- A stage that ends meets one of the fates. -/
theorem Visit.Runs.exists_meets {ended : Ended} (h : v.Runs sub wiring)
    (hr : v.result = .ok ended) :
    ∃ fate, v.Meets sub wiring fate ended := by
  rcases h.cases with ⟨e, -, hr'⟩ | ⟨fate, ended', hmeets, hr'⟩ | ⟨fault, -, hr'⟩ | ⟨e, -, hr'⟩
  all_goals rw [hr] at hr'; cases hr'
  exact ⟨fate, hmeets⟩

/-- The fate decides the outcome. -/
theorem Visit.Meets.outcome_eq {fate : Fate} {ended : Ended} (h : v.Meets sub wiring fate ended) :
    ended.outcome = fate.outcome := by
  cases h <;> rfl

/-- A stream of a stage has a file if and only if the command redirects it. -/
theorem Visit.Ready.isSome_iff {stage : Stage String} {files : StageFiles} {err : Sink}
    {t : Session} (ready : v.Ready sub wiring stage files err t) {role : Role}
    (hrole : role.rank < 3) :
    (files.ofRole role).isSome ↔ v.command.Redirects role := by
  rcases ready with ⟨u, hexp, -, hopen⟩
  rw [openAll_isSome_iff hopen hrole, expandStage_redirects hexp]

end Stages

end LineShell
