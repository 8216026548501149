import LineShell.Proofs.Custody
import LineShell.Proofs.Diversion

/-!
# Accumulation — lines whose output goes to one file

A line that is one builtin with its output redirected to a file leaves in that file what the builtin
would have left in memory: at the end of what stood there, or alone if the file is opened from the
start. So after any number of such lines nothing is lost that was written since the file was last
emptied, and nothing else is changed by it.

* `Disk.bytesAt?`, `Disk.opened`, `Disk.LeadsToFile` — files, and what opening them for output does;
* `runBuiltin_diverted` — a builtin in a session, with its output kept in memory or diverted to a
  file;
* `Pour` — a line that is one builtin and pours its output into a file;
* `Pour.bytesAt?_after`, `Pour.body?_after`, `Pour.result_eq` — what such a line leaves on the disk
  and for the caller;
* `Pours` — lines that do so one after the other;
* `redirected_output_accumulates` — what they leave in the file.
-/

namespace LineShell

/-! ## Files that are opened for output -/

namespace Disk

/-- The bytes of the file at a route. -/
def bytesAt? (d : Disk) (route : Route) : Option Bytes :=
  match d.body? route with
  | some (.file content, _) => some content.toBytes
  | _ => none

/-- A disk on which a file has been opened for output: it is made if it is missing, and emptied
unless writing goes to its end. -/
def opened (d : Disk) (route : Route) (append : Bool) : Disk :=
  match d.get? route with
  | none => d.add route (.file {}) fileMode
  | some _ => if append then d else d.empty route

/-- A path for output leads to the route, where a file stands or a directory has room for it. -/
def LeadsToFile (d : Disk) (path : String) (route : Route) : Prop :=
  d.locate .file path = .ok (.vacant route) ∨
    ∃ content mode modified, d.locate .file path =
      .ok (.entry route ⟨.file content, mode, modified⟩)

variable {d : Disk} {path : String} {route : Route} {append : Bool}

/-- The path to a regular file opens that file, emptied unless the bytes are to be appended. -/
theorem LeadsToFile.openOutput_eq (h : d.LeadsToFile path route) (append : Bool) :
    d.openOutput append path = .ok (d.opened route append, { route, append }) := by
  rcases h with hvacant | ⟨content, mode, modified, hentry⟩
  · have hmissing : d.get? route = none := locate_stands hvacant
    rw [openOutput_of_vacant append hvacant, opened, hmissing]
  · have hthere : d.get? route = some ⟨.file content, mode, modified⟩ := locate_stands hentry
    rw [openOutput, hentry, opened, hthere]
    rfl

/-- Opening the file counts as one touch of its route. -/
theorem LeadsToFile.touched (h : d.LeadsToFile path route) (append : Bool) :
    d.Touched [(route, append)] (d.opened route append) :=
  touched_openOutput (h.openOutput_eq append)

/-- What stands in the file then: what stood there before, or nothing. -/
theorem LeadsToFile.body?_opened (h : d.LeadsToFile path route) (append : Bool) :
    ∃ content mode, (d.opened route append).body? route = some (.file content, mode) ∧
      content.toBytes = if append then (d.bytesAt? route).getD [] else [] := by
  have hbody := (h.touched append).bodies route
  rcases h with hvacant | ⟨old, mode, modified, hentry⟩
  · have hmissing : d.body? route = none := body?_eq_none.2 (locate_stands hvacant)
    rw [bodyAfter?, hmissing] at hbody
    refine ⟨{}, fileMode, by simpa using hbody, ?_⟩
    rw [bytesAt?, hmissing, Option.getD_none, ite_self]
    rfl
  · have hthere : d.body? route = some (.file old, mode) := by
      have hget : d.get? route = some ⟨.file old, mode, modified⟩ := locate_stands hentry
      rw [body?, hget]
      rfl
    rw [bodyAfter?, hthere] at hbody
    cases append with
    | true => exact ⟨old, mode, by simpa using hbody, by rw [bytesAt?, hthere]; rfl⟩
    | false => exact ⟨{}, mode, by simpa [Node.emptied] using hbody, rfl⟩

/-- No other file is touched. -/
theorem LeadsToFile.body?_other (h : d.LeadsToFile path route) (append : Bool) {route' : Route}
    (hne : route' ≠ route) :
    (d.opened route append).body? route' = d.body? route' := by
  rw [(h.touched append).bodies, bodyAfter?]
  cases d.body? route' <;> simp [hne]

end Disk

/-! ## A builtin in a session -/

section Sinks

variable {sink sink' : Sink} {bs : Bytes} {s t : Session}

/-- A sink that is handed out leads to the file it led to. -/
theorem Sink.route?_handedOut (sink : Sink) : sink.handedOut.route? = sink.route? := by
  cases sink <;> rfl

/-- Taking over what was written through a handed out sink keeps its file. -/
theorem Sink.route?_receive {written : Sink} (h : written.route? = sink.route?) :
    (sink.receive written).route? = sink.route? := by
  cases sink with
  | buffer bytes => rfl
  | stdout => exact h
  | stderr => exact h
  | file handle => exact h

theorem Sink.route?_write (sink : Sink) (bs : Bytes) (h : Host) :
    (sink.write bs h).1.route? = sink.route? := by
  cases sink with
  | stdout => rfl
  | stderr => rfl
  | buffer bytes => rfl
  | file handle =>
      rw [Sink.write]
      cases hw : h.disk.write handle bs with
      | error fault => rfl
      | ok written => exact congrArg some (Disk.write_cases hw).1

end Sinks

section Sessions

variable {f : Route} {s s' : Session} {sink err : Sink} {handle : Handle} {content : Content}
  {mode : Nat} {name : String} {b : Builtin} {args : List String} {stdin : Option Bytes}

/-- A report that does not go to the file is the same in both sessions. -/
theorem report_diverts (s s' : Session) (hhost : Host.Diverts f s.scene.host s'.scene.host)
    (hsink : sink.route? ≠ some f) (text : String) :
    (runOn (Exec.report sink text) s').1 = (runOn (Exec.report sink text) s).1 ∧
      Host.Diverts f (runOn (Exec.report sink text) s).2.scene.host
        (runOn (Exec.report sink text) s').2.scene.host ∧
      (runOn (Exec.report sink text) s').2.scene.host.disk.body? f =
        s'.scene.host.disk.body? f := by
  rcases Sink.write_diverts hhost hsink (Utf8.encode (text ++ "\n")) with
    ⟨sink₁, h₁, h₁', r, hw, hw', hd, hkept⟩
  rw [Exec.report, runOn_write, runOn_write, hw, hw']
  cases r with
  | ok done => exact ⟨rfl, hd, hkept⟩
  | error fault => exact ⟨rfl, hd, hkept⟩

def Ended.heard (ended : Ended) : Outcome × Sink :=
  (ended.outcome, ended.err)

theorem runOn_report_then (sink : Sink) (text : String) (outcome : Outcome) (out : Sink)
    (s : Session) :
    runOn (do
      let err ← Exec.report sink text
      return (⟨outcome, out, err⟩ : Ended)) s =
      ((runOn (Exec.report sink text) s).1.map fun err => ⟨outcome, out, err⟩,
        (runOn (Exec.report sink text) s).2) := by
  rw [← runOn_map, map_eq_pure_bind]

/-- A builtin of the standard table in a session, with its output kept in memory or diverted to the
end of a file that it does not use otherwise. -/
theorem runBuiltin_diverted (s : Session) (handle : Handle)
    (h : Builtin.standard.lookup name = some b)
    (hfile : s.scene.host.disk.body? handle.route = some (.file content, mode))
    (hend : handle.append = true ∨ handle.position = content.size)
    (herr : err.route? ≠ some handle.route)
    (hunused : (runOn (b args stdin) (s.desk .memory err)).2.disk.body? handle.route =
      s.scene.host.disk.body? handle.route) :
    let kept := runOn (runBuiltin b name args stdin .memory err) s
    let filed := runOn (runBuiltin b name args stdin (.file handle) err) s
    filed.1.map Ended.heard = kept.1.map Ended.heard ∧
      Host.Diverts handle.route kept.2.scene.host filed.2.scene.host ∧
      ∃ content', filed.2.scene.host.disk.body? handle.route = some (.file content', mode) ∧
        content'.toBytes = content.toBytes ++
          (runOn (b args stdin) (s.desk .memory err)).2.out.held := by
  have hroute : (s.desk .memory err).err.route? = err.route? := err.route?_handedOut
  have hbuiltin : Desk.Diverted handle.route content mode (s.desk .memory err)
      (runOn (b args stdin) (s.desk .memory err))
        (runOn (b args stdin) (s.desk (.file handle) err)) :=
    standard_diverted h args stdin hfile hend (hroute ▸ herr) hunused
  -- Both runs of the builtin are brought to its answer and its desk, and then compared.
  have hkept := runOn_runBuiltin b name args stdin .memory err s
  have hfiled := runOn_runBuiltin b name args stdin (.file handle) err s
  rcases hk : runOn (b args stdin) (s.desk .memory err) with ⟨answer, desk⟩
  rcases hf : runOn (b args stdin) (s.desk (.file handle) err) with ⟨answer', desk'⟩
  rw [hk, hf] at hbuiltin
  rw [Session.desk] at hk hf
  rw [hk] at hkept
  rw [hf] at hfiled
  rw [hkept, hfiled]
  rcases hbuiltin with ⟨hanswer, ⟨-, hhost, hsame⟩, ⟨content', hfile', hbytes⟩, hrouted⟩
  dsimp only at hanswer hhost hsame hfile' hbytes hrouted
  subst hanswer
  rw [hroute] at hrouted
  have hsink : (err.receive desk.err).route? ≠ some handle.route := by
    rw [Sink.route?_receive (hsame ▸ hrouted)]
    exact herr
  rcases answer' with e | (n | n)
  · -- What the builtin throws is reported in both sessions alike, and not into the file.
    rcases report_diverts (s.withScene desk.scene) (s.withScene desk'.scene) hhost hsink
      s!"{name}: {e.message}" with ⟨hreport, hdiverts, hkeptFile⟩
    dsimp only
    rw [hsame, runOn_report_then, runOn_report_then]
    refine ⟨?_, hdiverts, content', hkeptFile.trans hfile', hbytes⟩
    dsimp only
    rw [hreport]
    cases (runOn (Exec.report (err.receive desk.err) s!"{name}: {e.message}")
      (s.withScene desk.scene)).1 <;> rfl
  · dsimp only
    rw [hsame]
    exact ⟨rfl, hhost, content', hfile', hbytes⟩
  · dsimp only
    rw [hsame]
    exact ⟨rfl, hhost, content', hfile', hbytes⟩

/-- With memory for its errors, a builtin always comes to an end. -/
theorem runBuiltin_ends (b : Builtin) (name : String) (args : List String) (stdin : Option Bytes)
    (out : Sink) (bytes : Bytes) (s : Session) :
    ∃ ended, (runOn (runBuiltin b name args stdin out (.buffer bytes)) s).1 = .ok ended := by
  rw [runOn_runBuiltin]
  rcases runOn (b args stdin) ⟨s.scene, out.handedOut, (Sink.buffer bytes).handedOut⟩
    with ⟨e | (n | n), desk⟩
  · dsimp only
    rw [runOn_report_then]
    exact ⟨_, rfl⟩
  · exact ⟨_, rfl⟩
  · exact ⟨_, rfl⟩

end Sessions

/-! ## The error sink -/

section Routes

variable {sub : Substitution} {wiring : Wiring} {err err' : Sink} {s t : Session}

/-- A substitution leaves the errors to go where they went. -/
def Substitution.KeepsRoute (sub : Substitution) : Prop :=
  ∀ q wiring err s text err' t, runOn (sub q wiring err) s = (.ok (text, err'), t) →
    err'.route? = err.route?

/-- However a write ends, the sink leads where it led. -/
theorem write_keeps_route {bs : Bytes} (h : runOn (Exec.write err bs) s = (.ok err', t)) :
    err'.route? = err.route? := by
  have hroute := err.route?_write bs s.scene.host
  rw [runOn_write] at h
  rcases hw : err.write bs s.scene.host with ⟨sink, host, fault | done⟩ <;> rw [hw] at h hroute <;>
    cases h
  exact hroute

theorem refuse_keepsRoute : Substitution.KeepsRoute refuse := by
  intro q wiring err s text err' t h
  rw [refuse, runOn_bind_of_ok (runOn_get s)] at h
  rcases runOn_bind_eq_ok_iff.1 h with ⟨sink, u, hreport, hrest⟩
  cases hrest
  exact write_keeps_route hreport

theorem nest_keepsRoute (run : Pipeline → Wiring → Exec Result) :
    Substitution.KeepsRoute (nest run) := by
  intro q wiring err s text err' t h
  rcases nest_eq_ok h with ⟨result, u, -, hpass⟩
  rw [passOn] at hpass
  split at hpass
  · cases hpass
    rfl
  · exact write_keeps_route hpass

/-- At no depth does running a substitution turn the error sink to another file. -/
theorem substitutionWithin_keepsRoute (levels : Nat) : (substitutionWithin levels).KeepsRoute := by
  cases levels with
  | zero => exact refuse_keepsRoute
  | succ levels => exact nest_keepsRoute _

/-- Expanding a word leaves the error sink with its file. -/
theorem expandWord_keeps_route (hsub : sub.KeepsRoute) {w : Word} {text : String}
    (h : runOn (expandWord sub wiring err w) s = (.ok (text, err'), t)) :
    err'.route? = err.route? := by
  induction w generalizing err s text with
  | nil =>
      cases h
      rfl
  | cons part rest ih =>
      rw [expandWord] at h
      rcases runOn_bind_eq_ok_iff.1 h with ⟨⟨first, err₁⟩, s₁, hfirst, hmore⟩
      rcases runOn_bind_eq_ok_iff.1 hmore with ⟨⟨tail, err₂⟩, s₂, htail, hends⟩
      cases hends
      rw [ih htail]
      -- Only a substitution may write to the sink, and it hands back the same file.
      cases part with
      | text _ =>
          cases hfirst
          rfl
      | var name =>
          simp only [expandPart, runOn_bind, runOn_get, runOn_note, runOn_pure, Prod.mk.injEq,
            Except.ok.injEq] at hfirst
          rw [hfirst.1.2]
      | substitution q => exact hsub _ _ _ _ _ _ _ hfirst

/-- Expanding a stage leaves the error sink with its file. -/
theorem expandStage_keeps_route (hsub : sub.KeepsRoute) {c : Command} {stage : Stage String}
    (h : runOn (expandStage sub wiring err c) s = (.ok (stage, err'), t)) :
    err'.route? = err.route? := by
  rcases expandStage_eq_ok h with ⟨text, hword⟩
  exact expandWord_keeps_route hsub hword

/-- Neither wiring starts with its errors going to a file. -/
theorem Wiring.route?_errorSink (w : Wiring) : w.errorSink.route? = none := by
  unfold errorSink
  cases w.captureErrors <;> rfl

end Routes

/-! ## One line -/

/-- A session that is about to expand the words of a line with one command. -/
def Session.expanding (s : Session) (line : String) : Session :=
  (s.recording line).noting (.stageStarting 0 1)

/-- A line that is one builtin of the standard table and pours its output into the file at the route
`f`, which it does not use otherwise. -/
structure Pour (f : Route) (s : Session) (line : String) (wiring : Wiring) where
  command : Command
  parsed : Pipeline.parse line = .ok [command]
  /-- The words of the command as texts, with the error sink and the session then. -/
  stage : Stage String
  err : Sink
  expanded : Session
  expands : runOn (expandStage (substitutionWithin s.room) wiring wiring.errorSink command)
    (s.expanding line) =
    (.ok (stage, err), expanded)
  sound : expanded.expansionFailed = false
  builtin : Builtin
  found : s.table.lookup stage.name = some builtin
  standard : Builtin.standard.lookup stage.name = some builtin
  /-- The redirection of the output, and those that are opened before it and behind it. -/
  output : Redirection String
  front : List (Redirection String)
  back : List (Redirection String)
  redirections : stage.redirections = front ++ output :: back
  role : output.role = .stdout
  last : ∀ r ∈ back, r.role ≠ .stdout
  /-- The session and the files when the output is to be opened. -/
  waiting : Session
  frontFiles : StageFiles
  frontOpens : runOn (openAll {} front) expanded = (.ok (.ok frontFiles), waiting)
  leads : waiting.scene.host.disk.LeadsToFile (Path.resolve waiting.scene.cwd output.target) f
  /-- The session and the files when all is open. -/
  ready : Session
  files : StageFiles
  backOpens : runOn (openAll (frontFiles.connect ⟨f, 0, output.append⟩ .stdout) back)
    (waiting.havingOpened [output] (waiting.scene.host.disk.opened f output.append)) =
      (.ok (.ok files), ready)
  stdin : Option Bytes
  fed : runOn (builtinInput files.stdin wiring.firstInput) (ready.starting stage) =
    (.ok stdin, ready.starting stage)
  /-- Neither the words nor the other redirections nor the builtin itself use the file. -/
  unusedByFront : waiting.scene.host.disk.body? f = s.scene.host.disk.body? f
  unusedByBack : ready.scene.host.disk.body? f =
    (waiting.scene.host.disk.opened f output.append).body? f
  unusedByErrors : (files.stderr.map Handle.route) ≠ some f
  unusedByBuiltin :
    (runOn (builtin stage.args stdin)
      ((ready.starting stage).desk .memory (files.errOr err))).2.disk.body? f =
      ready.scene.host.disk.body? f

namespace Pour

variable {f : Route} {s : Session} {line : String} {wiring : Wiring} (p : Pour f s line wiring)

/-- What the builtin writes to its output: what it leaves in memory if that is where it goes. -/
def bytes : Bytes :=
  (runOn (p.builtin p.stage.args p.stdin)
    ((p.ready.starting p.stage).desk .memory (p.files.errOr p.err))).2.out.held

/-- How the builtin goes if its output goes there. -/
def go (out : Sink) : Except Error Ended × Session :=
  runOn (runBuiltin p.builtin p.stage.name p.stage.args p.stdin out (p.files.errOr p.err))
    (p.ready.starting p.stage)

/-- The stage that the line runs. -/
def visit : Visit :=
  .of (substitutionWithin s.room) wiring p.command wiring.firstInput (wiring.outputSink 0)
    wiring.errorSink (s.expanding line)

/-- The line runs this stage, and that decides how it ends. -/
theorem runOn_run (p : Pour f s line wiring) :
    runOn (Session.run line wiring) s =
      ((p.visit.conclusion 0).1.map wiring.resultOf, (p.visit.conclusion 0).2) := by
  have hvisits : visits (substitutionWithin s.room) wiring [p.command] (s.recording line) =
    [] ++ [p.visit] := by
    rcases @visitsFrom_cons_cases (substitutionWithin s.room) wiring 1 0 wiring.firstInput
      wiring.errorSink p.command [] (s.recording line) with ⟨v, rfl, ⟨ended, -, hvs⟩ | ⟨-, hvs⟩⟩ <;>
        exact hvs
  rw [runOn_run_eq_runWithin p.parsed, runWithin_eq_runWith, runOn_runWith hvisits]
  rfl

/-- Files are opened from left to right: those behind start from what those in front gave. -/
theorem openAll_append {files files' : StageFiles} {front : List (Redirection String)}
    {t u : Session} (h : runOn (openAll files front) t = (.ok (.ok files'), u))
    (back : List (Redirection String)) :
    runOn (openAll files (front ++ back)) t = runOn (openAll files' back) u := by
  induction front generalizing files t with
  | nil =>
      cases h
      rfl
  | cons r rest ih =>
      rw [openAll] at h
      rcases openOne_cases files r t with ⟨fault, -, hone⟩ | ⟨disk, handle, t', -, hone⟩ <;>
        rw [runOn_bind_of_ok hone] at h
      · cases h
      · rw [List.cons_append, openAll, runOn_bind_of_ok hone]
        exact ih h

/-- All targets can be opened, that of the output because its path leads to the file. -/
theorem opens (p : Pour f s line wiring) :
    runOn (openAll {} p.stage.redirections) p.expanded = (.ok (.ok p.files), p.ready) := by
  have hopen : p.waiting.scene.host.disk.openFor p.output.role p.output.append
      (Path.resolve p.waiting.scene.cwd p.output.target) =
      .ok (p.waiting.scene.host.disk.opened f p.output.append, ⟨f, 0, p.output.append⟩) := by
    rw [p.role, Disk.openFor_of_ne (by decide), p.leads.openOutput_eq]
  rw [p.redirections, openAll_append p.frontOpens, runOn_openAll_cons hopen, p.role, p.backOpens]

/-- The output of the builtin goes to the file. -/
theorem stdout_eq (p : Pour f s line wiring) : p.files.stdout = some ⟨f, 0, p.output.append⟩ := by
  rcases @openAll_connects _ _ _ _ _ p.backOpens .stdout (by decide) with
    ⟨-, hfile⟩ | ⟨front, r, back, _, _, _, _, hback, hrole, -⟩
  · exact hfile
  · exact absurd hrole (p.last r (by simp [hback]))

theorem frame_eq (p : Pour f s line wiring) : p.ready.frame = s.frame := by
  have hexpanded : p.expanded.frame = (s.expanding line).frame :=
    (expandStage_keeps_frame (substitutionWithin_keepsFrame _) wiring _ _).eq p.expands
  have hready : p.ready.frame = p.expanded.frame := (openAll_keeps_ledger _ _).frame.eq p.opens
  exact hready.trans (hexpanded.trans rfl)

/-- The stage of a pour does what its builtin does, with the files it was given. -/
theorem performs (p : Pour f s line wiring) :
    p.visit.Performs (substitutionWithin s.room) wiring p.stage p.builtin p.stdin p.files p.err
      p.ready where
  ready := ⟨p.expanded, p.expands, p.sound, p.opens⟩
  named := by
    rw [String.isEmpty_eq_false_iff]
    intro hempty
    have hstandard := p.standard
    rw [hempty] at hstandard
    cases hstandard
  found := by
    rw [Session.table_eq_of_frame_eq p.frame_eq]
    exact p.found
  fed := p.fed

/-- What the stage leaves is what the builtin leaves with its output diverted to the file. -/
theorem visit_eq (p : Pour f s line wiring) :
    p.visit.result = (p.go (.file ⟨f, 0, p.output.append⟩)).1.map
      (p.files.settle p.visit.out p.err) ∧
      p.visit.after = (p.go (.file ⟨f, 0, p.output.append⟩)).2 := by
  have hperforms := p.performs
  have hcommand := Visit.Runs.command (v := p.visit) rfl hperforms.ready hperforms.named
  rw [runOn_runCommand_of_builtin (s := p.ready.starting p.stage) hperforms.found hperforms.fed,
    runOn_map, StageFiles.outOr, p.stdout_eq] at hcommand
  exact ⟨(congrArg Prod.fst hcommand).symm, (congrArg Prod.snd hcommand).symm⟩

/-- The complaints of a pour do not go to the file it fills. -/
theorem route?_err (p : Pour f s line wiring) : (p.files.errOr p.err).route? ≠ some f := by
  -- Errors go to no file, unless the line sends them to one, and then it is another one.
  have herr : p.err.route? = none :=
    (expandStage_keeps_route (substitutionWithin_keepsRoute _) p.expands).trans
      wiring.route?_errorSink
  have hunused := p.unusedByErrors
  rw [StageFiles.errOr]
  cases hfile : p.files.stderr with
  | none =>
      rw [Option.map_none, Option.getD_none, herr]
      exact (Option.some_ne_none f).symm
  | some handle =>
      rw [hfile] at hunused
      exact hunused

/-- What stands in the file when the builtin starts. -/
theorem body?_ready (p : Pour f s line wiring) :
    ∃ content mode, p.ready.scene.host.disk.body? f = some (.file content, mode) ∧
      content.toBytes = if p.output.append then (s.scene.host.disk.bytesAt? f).getD [] else [] := by
  rcases p.leads.body?_opened p.output.append with ⟨content, mode, hbody, hbytes⟩
  refine ⟨content, mode, p.unusedByBack.trans hbody, ?_⟩
  rw [hbytes, Disk.bytesAt?, p.unusedByFront, Disk.bytesAt?]

/-- The builtin goes as if its output were kept in memory, which is then found at the end of the
file. -/
theorem go_diverted (p : Pour f s line wiring) :
    (p.go (.file ⟨f, 0, p.output.append⟩)).1.map Ended.heard = (p.go .memory).1.map Ended.heard ∧
      Host.Diverts f (p.go .memory).2.scene.host
        (p.go (.file ⟨f, 0, p.output.append⟩)).2.scene.host ∧
      (p.go (.file ⟨f, 0, p.output.append⟩)).2.scene.host.disk.bytesAt? f =
        some ((if p.output.append then (s.scene.host.disk.bytesAt? f).getD [] else []) ++
          p.bytes) := by
  rcases p.body?_ready with ⟨content, mode, hfile, hbytes⟩
  -- A file that has been opened from the start has been emptied, so its start is its end.
  have hend : p.output.append = true ∨ 0 = content.size := by
    cases happend : p.output.append with
    | true => exact .inl rfl
    | false =>
        rw [happend] at hbytes
        rw [Content.size_eq_length, hbytes]
        exact .inr rfl
  rcases runBuiltin_diverted (p.ready.starting p.stage) ⟨f, 0, p.output.append⟩ p.standard hfile
    hend p.route?_err p.unusedByBuiltin with ⟨hanswer, hhost, content', hfile', hbytes'⟩
  refine ⟨hanswer, hhost, ?_⟩
  rw [Disk.bytesAt?, go, hfile', ← hbytes]
  exact congrArg some hbytes'

/-- The disk after the line is that which the builtin leaves. -/
theorem disk_after (p : Pour f s line wiring) :
    (runOn (Session.run line wiring) s).2.scene.host.disk =
      (p.go (.file ⟨f, 0, p.output.append⟩)).2.scene.host.disk := by
  rw [p.runOn_run, Visit.conclusion, ← p.visit_eq.2]
  cases p.visit.result <;> rfl

/-- The line leaves in the file what stood there, unless it was emptied, and behind it what the
builtin writes. -/
theorem bytesAt?_after (p : Pour f s line wiring) :
    (runOn (Session.run line wiring) s).2.scene.host.disk.bytesAt? f =
      some ((if p.output.append then (s.scene.host.disk.bytesAt? f).getD [] else []) ++
        p.bytes) := by
  rw [p.disk_after]
  exact p.go_diverted.2.2

/-- Everything else is as if the output had been kept in memory. -/
theorem body?_after (p : Pour f s line wiring) {route : Route} (hne : route ≠ f) :
    (runOn (Session.run line wiring) s).2.scene.host.disk.body? route =
      (p.go .memory).2.scene.host.disk.body? route := by
  rw [p.disk_after]
  exact p.go_diverted.2.1.bodies route hne

/-- The line has a result if the builtin comes to an end. Nothing of the output is in it. -/
theorem result_eq (p : Pour f s line wiring) :
    ((runOn (Session.run line wiring) s).1.map fun result => (result.stdout, result.code)) =
      (p.go .memory).1.map fun ended => ("", ended.outcome.status) := by
  have hheard := p.go_diverted.1
  -- The sink that the file stands in for has got nothing.
  have hmemory : (wiring.outputSink 0).held = [] := by
    rw [Wiring.outputSink]
    split <;> rfl
  rw [p.runOn_run, Visit.conclusion, p.visit_eq.1]
  generalize (p.go (.file ⟨f, 0, p.output.append⟩)).1 = filed at hheard ⊢
  generalize (p.go .memory).1 = kept at hheard ⊢
  rcases filed with e | ⟨outcome, out, err⟩ <;> rcases kept with e' | ⟨outcome', out', err'⟩ <;>
    cases hheard
  · rfl
  · have hnothing : (if outcome.Continues then
        (p.files.settle p.visit.out p.err ⟨outcome, out, err⟩).out.held else []) = [] := by
      rw [StageFiles.settle, p.stdout_eq]
      exact (ite_congr rfl (fun _ => hmemory) fun _ => rfl).trans (ite_self _)
    have hstdout := @Wiring.stdout_resultOf wiring ⟨outcome.status, outcome.exit?, _,
      (p.files.settle p.visit.out p.err ⟨outcome, out, err⟩).err⟩ hnothing
    exact congrArg (fun stdout => Except.ok (stdout, outcome.status)) hstdout

/-- With memory for the errors, the line has a result. -/
theorem exists_result (p : Pour f s line wiring) (hcapture : wiring.captureErrors = true)
    (herrors : p.files.stderr = none) :
    ∃ result, (runOn (Session.run line wiring) s).1 = .ok result := by
  have hresult := p.result_eq
  -- The error sink is memory from the start of the line on, and memory takes every report.
  rcases expandStage_eq_ok p.expands with ⟨text, hword⟩
  rcases expandWord_extends (substitutionWithin_extends _) hword []
    (by rw [Wiring.errorSink, hcapture]; rfl) with
    ⟨more, herr⟩
  have herr' : p.files.errOr p.err = .buffer ([] ++ more) := by
    rw [StageFiles.errOr, herrors]
    exact herr
  rcases runBuiltin_ends p.builtin p.stage.name p.stage.args p.stdin .memory ([] ++ more)
    (p.ready.starting p.stage) with ⟨ended, hends⟩
  rw [go, herr', hends] at hresult
  rcases hrun : (runOn (Session.run line wiring) s).1 with e | result
  · rw [hrun] at hresult
    cases hresult
  · exact ⟨result, rfl⟩

end Pour

/-! ## Echoes into a file -/

/-- The command `echo` with a text, and with its output to the file at a path. -/
def echoInto (append : Bool) (text path : String) : Command :=
  ⟨[.text "echo"], [[.text text]], [⟨.stdout, append, [.text path]⟩]⟩

section Echoes

variable {f : Route} {s : Session} {line text path : String} {append : Bool}

/-- A literal echo with one redirection needs no expansion. -/
theorem runOn_expandStage_echoInto (sub : Substitution) (wiring : Wiring) (err : Sink)
    (append : Bool) (text path : String) (s : Session) :
    runOn (expandStage sub wiring err (echoInto append text path)) s =
      (.ok (⟨"echo", [text], [⟨.stdout, append, path⟩]⟩, err), s) := by
  have htext : ∀ t : String, runOn (expandWord sub wiring err [.text t]) s = (.ok (t, err), s) := by
    intro t
    change (Except.ok (t ++ "", err), s) = _
    rw [String.append_empty]
  rw [expandStage, echoInto, runOn_bind_of_ok (htext "echo")]
  simp only [expandWords, expandTargets, runOn_bind, htext, runOn_pure]

/-- The command in a sound session, if its path leads to the file. -/
def echoPour (hparse : Pipeline.parse line = .ok [echoInto append text path])
    (hsound : s.expansionFailed = false) (htable : s.table = Builtin.standard)
    (hleads : s.scene.host.disk.LeadsToFile (Path.resolve s.scene.cwd path) f) (wiring : Wiring) :
    Pour f s line wiring where
  command := echoInto append text path
  parsed := hparse
  stage := ⟨"echo", [text], [⟨.stdout, append, path⟩]⟩
  err := wiring.errorSink
  expanded := s.expanding line
  expands := runOn_expandStage_echoInto _ _ _ _ _ _ _
  sound := hsound
  builtin := Builtin.echo
  found := by rw [htable]; rfl
  standard := rfl
  output := ⟨.stdout, append, path⟩
  front := []
  back := []
  redirections := rfl
  role := rfl
  last := nofun
  waiting := s.expanding line
  frontFiles := {}
  frontOpens := rfl
  leads := hleads
  ready := (s.expanding line).havingOpened [⟨.stdout, append, path⟩]
    (s.scene.host.disk.opened f append)
  files := { stdout := some ⟨f, 0, append⟩ }
  backOpens := rfl
  stdin := none
  fed := by
    rw [Wiring.firstInput]
    split <;> rfl
  unusedByFront := rfl
  unusedByBack := rfl
  unusedByErrors := nofun
  unusedByBuiltin := rfl

end Echoes

/-! ## Lines that pour into one file -/

/-- The lines are builtins that pour their output into the file, one after the other. For each there
is whether it goes to the end of the file, and the bytes. -/
inductive Pours (f : Route) : Session → List (String × Wiring) → List (Bool × Bytes) → Prop where
  | nil (s : Session) : Pours f s [] []
  | cons {s : Session} {line : String} {wiring : Wiring} {lines : List (String × Wiring)}
    {writes : List (Bool × Bytes)}
      (p : Pour f s line wiring) (rest : Pours f (runOn (Session.run line wiring) s).2 lines
        writes) :
      Pours f s ((line, wiring) :: lines) ((p.output.append, p.bytes) :: writes)

/-- What is in a file, if there is one, after a write to its end or to a file that has been
emptied. -/
def poured (held : Option Bytes) (write : Bool × Bytes) : Option Bytes :=
  some ((if write.1 then held.getD [] else []) ++ write.2)

section Poured

variable {f : Route} {s : Session} {lines : List (String × Wiring)}
  {writes front back : List (Bool × Bytes)}

/-- The writes of the lines are all that happens to the file. -/
theorem Pours.bytesAt?_runAll (h : Pours f s lines writes) :
    (s.runAll lines).scene.host.disk.bytesAt? f = writes.foldl poured
    (s.scene.host.disk.bytesAt? f) := by
  -- By induction on the lines: what one line leaves in the file is what the next one finds there.
  induction h with
  | nil s => rfl
  | cons p rest ih =>
      rw [Session.runAll, ih, p.bytesAt?_after]
      rfl

/-- Writes to the end are added to what is there. -/
theorem foldl_poured_some (happend : ∀ w ∈ writes, w.1 = true) (held : Bytes) :
    writes.foldl poured (some held) = some (held ++ (writes.map Prod.snd).flatten) := by
  induction writes generalizing held with
  | nil => simp
  | cons w rest ih =>
      rw [List.forall_mem_cons] at happend
      rw [List.foldl_cons, poured, if_pos happend.1, Option.getD_some, ih happend.2]
      simp

/-- Writes to the end are added to what was there, if there was something. -/
theorem foldl_poured_of_append (happend : ∀ w ∈ writes, w.1 = true) (hne : writes ≠ [])
    (held : Option Bytes) :
    writes.foldl poured held = some (held.getD [] ++ (writes.map Prod.snd).flatten) := by
  cases writes with
  | nil => exact absurd rfl hne
  | cons w rest =>
      rw [List.forall_mem_cons] at happend
      rw [List.foldl_cons, poured, if_pos happend.1, foldl_poured_some happend.2]
      simp

/-- What was there before the file was emptied does not matter. -/
theorem foldl_poured_of_emptied (happend : ∀ w ∈ back, w.1 = true) (front : List (Bool × Bytes))
    (bytes : Bytes) (held : Option Bytes) :
    (front ++ (false, bytes) :: back).foldl poured held =
      some (bytes ++ (back.map Prod.snd).flatten) := by
  rw [List.foldl_append, List.foldl_cons, poured, foldl_poured_some happend]
  rfl

end Poured

/-- A builtin that pours its output into a file adds it to what stood there, or to nothing if the
file is emptied; all other files are what they would be if the output had been kept in memory, and
of the output nothing is left for the caller. After lines that do so, one after the other, the file
holds what they wrote since one of them last emptied it, in order, and what stood there at first if
none did. -/
theorem redirected_output_accumulates (f : Route) :
    (∀ s line wiring, ∀ p : Pour f s line wiring,
      (runOn (Session.run line wiring) s).2.scene.host.disk.bytesAt? f =
        some ((if p.output.append then (s.scene.host.disk.bytesAt? f).getD [] else []) ++ p.bytes) ∧
      (∀ route, route ≠ f →
        (p.waiting.scene.host.disk.opened f p.output.append).body? route =
          p.waiting.scene.host.disk.body? route ∧
        (runOn (Session.run line wiring) s).2.scene.host.disk.body? route =
          (p.go .memory).2.scene.host.disk.body? route) ∧
      ((runOn (Session.run line wiring) s).1.map fun result => (result.stdout, result.code)) =
        ((p.go .memory).1.map fun ended => ("", ended.outcome.status)) ∧
      (wiring.captureErrors = true → p.files.stderr = none →
        ∃ result, (runOn (Session.run line wiring) s).1 = .ok result)) ∧
    ∀ s lines writes, Pours f s lines writes →
      ((∀ w ∈ writes, w.1 = true) → writes ≠ [] → (s.runAll lines).scene.host.disk.bytesAt? f =
        some ((s.scene.host.disk.bytesAt? f).getD [] ++ (writes.map Prod.snd).flatten)) ∧
      ∀ front bytes back, writes = front ++ (false, bytes) :: back → (∀ w ∈ back, w.1 = true) →
        (s.runAll lines).scene.host.disk.bytesAt? f =
          some (bytes ++ (back.map Prod.snd).flatten) := by
  refine ⟨fun s line wiring p =>
    ⟨p.bytesAt?_after, fun route hne => ⟨p.leads.body?_other _ hne, p.body?_after hne⟩, p.result_eq,
      p.exists_result⟩, fun s lines writes h => ?_⟩
  rw [h.bytesAt?_runAll]
  refine ⟨fun happend hne => foldl_poured_of_append happend hne _, ?_⟩
  rintro front bytes back rfl happend
  exact foldl_poured_of_emptied happend front bytes _

/-- A line empties the file, and what it writes and what the next line appends is in it. -/
theorem emptied_file_holds_later_lines :
    ∃ writes, Pours ["f"] bareSession [("echo a > /f", .captured), ("echo b 1>> /f", .captured)]
      writes ∧
      (bareSession.runAll [("echo a > /f", .captured),
        ("echo b 1>> /f", .captured)]).scene.host.disk.bytesAt? ["f"] =
        some (Utf8.encode "a\nb\n") := by
  have hfirst : Pipeline.parse "echo a > /f" = .ok [echoInto false "a" "/f"] := by
    with_unfolding_all rfl
  have hsecond : Pipeline.parse "echo b 1>> /f" = .ok [echoInto true "b" "/f"] := by
    with_unfolding_all rfl
  -- The first line makes the file, so the second finds it there.
  let p : Pour ["f"] bareSession "echo a > /f" .captured :=
    echoPour hfirst rfl rfl (.inl rfl) .captured
  have hcwd : (runOn (Session.run "echo a > /f" .captured) bareSession).2.scene.cwd = "/" := by
    rw [p.runOn_run]
    rfl
  have hleads : (runOn (Session.run "echo a > /f" .captured)
    bareSession).2.scene.host.disk.LeadsToFile
      (Path.resolve (runOn (Session.run "echo a > /f" .captured) bareSession).2.scene.cwd "/f")
        ["f"] := by
    rw [p.disk_after, hcwd]
    exact .inr ⟨_, _, _, rfl⟩
  let q : Pour ["f"] (runOn (Session.run "echo a > /f" .captured) bareSession).2 "echo b 1>> /f"
    .captured :=
    echoPour hsecond (by rw [p.runOn_run]; rfl) (by rw [p.runOn_run]; rfl) hleads .captured
  have hpours : Pours ["f"] bareSession [("echo a > /f", .captured), ("echo b 1>> /f", .captured)]
      [(false, p.bytes), (true, q.bytes)] := .cons p (.cons q (.nil _))
  refine ⟨_, hpours, ?_⟩
  rw [((redirected_output_accumulates ["f"]).2 _ _ _ hpours).2 [] p.bytes [(true, q.bytes)] rfl
    (by simp)]
  rfl

end LineShell
