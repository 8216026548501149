import LineShell.Proofs.Conduct
import LineShell.Proofs.Decoding
import LineShell.Proofs.Streams

/-!
# Failures — what becomes of failing commands when output is kept

If a caller keeps the error output and no stage redirects it, then nearly every failure of a command
is told there and shows in a status, and the caller gets an answer. One does not: a builtin whose
input can be opened but not read, such as a directory, ends the line.

* `ErrorsUntouched` — no stage at any level redirects its error output;
* `runWithin_error_iff` — the runs that end in an error;
* `Visit.Meets.complains`, `Visit.Meets.says` — what the shell and what builtins say about a
  failure;
* `Occurs.told` — what was said at any level is found in the answer;
* `failures_are_told` — lines in general;
* `directory_ends_line` — a line that ends in an error.
-/

namespace LineShell

/-! ## Lines that leave error output alone -/

/-- No stage redirects its error output, at any level. -/
inductive ErrorsUntouched : Pipeline → Prop where
  | intro {p : Pipeline} (stages : ∀ c ∈ p, ¬ Stage.Redirects c .stderr)
      (inner : ∀ c ∈ p, ∀ q, Part.substitution q ∈ Stage.parts c → ErrorsUntouched q) :
      ErrorsUntouched p

section Errors

variable {levels rest : Nat} {p q : Pipeline} {wiring w : Wiring} {s t : Session} {v : Visit}
  {err : Sink} {e : Error} {sub : Substitution}

/-- Only stages of the pipeline are visited. -/
theorem command_mem_of_visits (hv : v ∈ visits sub wiring p s) : v.command ∈ p :=
  visitsFrom_commands.subset (List.mem_map_of_mem hv)

/-- What a stage enters is a substitution in its text. -/
theorem Visit.Enters.mem_parts (h : v.Enters sub wiring q err t) :
    Part.substitution q ∈ v.command.parts := by
  rcases h with ⟨front, back, text, hparts, -⟩
  simp [hparts]

/-- Where no stage redirects its errors, no visited one does. -/
theorem Occurs.not_redirects (h : Occurs levels p wiring s rest w v) (hp : ErrorsUntouched p) :
    ¬ v.command.Redirects .stderr := by
  induction h with
  | here visited =>
      rcases hp with ⟨stages, -⟩
      exact stages _ (command_mem_of_visits visited)
  | inside visited entered _ ih =>
      rcases hp with ⟨-, inner⟩
      exact ih (inner _ (command_mem_of_visits visited) _ entered.mem_parts)

/-! ## Errors -/

/-- An input that cannot be read ends the line with an error. -/
theorem Visit.Unreadable.result {fault : Fault} (h : v.Unreadable sub wiring fault)
    (hrun : v.Runs sub wiring) : v.result = .error (.stream fault) := by
  rcases h with ⟨stage, files, err, t, b, handle, ready, named, hb, hfile, hread⟩
  have hin : runOn (builtinInput files.stdin v.input) (t.starting stage) =
      (.error (.stream fault), t.starting stage) := by
    have hread' : (t.starting stage).scene.host.disk.readAll handle = .error fault := hread
    rw [hfile, builtinInput, runOn_bind_of_ok (runOn_get _), hread']
    rfl
  have hcommand : runOn (runCommand stage files v.input v.out err) (t.starting stage) =
      (.error (.stream fault), t.starting stage) := by
    have hb' : (t.starting stage).table.lookup stage.name = some b := hb
    rw [runCommand, runOn_bind_of_ok (runOn_get _), hb']
    exact runOn_bind_of_error hin
  -- All steps up to the command succeed, and the command starts with reading its input.
  exact (congrArg Prod.fst (hcommand.symm.trans (hrun.command ready named))).symm

/-- A run that keeps its error output ends in an error if and only if a builtin at some level is to
read a file that cannot be read, and then the error is the fault of that file. -/
theorem runWithin_error_iff (hcapture : wiring.captureErrors = true) (hp : ErrorsUntouched p) :
    (∃ t, runOn (runWithin levels p wiring) s = (.error e, t)) ↔
      ∃ fault, e = .stream fault ∧ ∃ rest w v, Occurs levels p wiring s rest w v ∧
        v.Unreadable (substitutionWithin rest) w fault := by
  constructor
  · rintro ⟨t, h⟩
    rcases exists_occurs_of_error h with ⟨rest, w, v, hv, -, -, hread | hunheard | hbreak⟩
    · rcases hread with ⟨fault, hread, rfl⟩
      exact ⟨fault, rfl, rest, w, v, hv, hread⟩
    · exact (hv.not_unheard hcapture (hv.not_redirects hp) e hunheard).elim
    · exact (hv.not_breaksOff hcapture e hbreak).elim
  · rintro ⟨fault, rfl, rest, w, v, hv, hread⟩
    rcases hv.runs_into (hread.result hv.runs) with ⟨t, h, -⟩
    exact ⟨t, h⟩

end Errors

/-! ## Reports -/

/-- The text is found in another one. -/
def Tells (whole text : String) : Prop :=
  ∃ before after, whole = before ++ text ++ after

theorem Tells.trans {a b c : String} (hab : Tells a b) (hbc : Tells b c) : Tells a c := by
  rcases hab with ⟨x, y, rfl⟩
  rcases hbc with ⟨x', y', rfl⟩
  exact ⟨x ++ x', y' ++ y, by simp only [String.append_assoc]⟩

theorem Tells.ne_empty {a b : String} (h : Tells a b) (hb : b ≠ "") : a ≠ "" := by
  rcases h with ⟨x, y, rfl⟩
  intro hempty
  exact hb (String.append_eq_empty_iff.1 (String.append_eq_empty_iff.1 hempty).1).2

/-- A text among other bytes is told, whatever the bytes around it are. -/
theorem tells_decodeLossy (x y : Bytes) {text : String} (htext : text ≠ "") :
    Tells (Utf8.decodeLossy (x ++ Utf8.encode text ++ y)) text :=
  ⟨_, _, Utf8.decodeLossy_append_encode x y htext⟩

def Sink.Has (sink : Sink) (text : String) : Prop :=
  ∃ x y, sink = .buffer (x ++ Utf8.encode text ++ y)

/-- A sink keeps the texts it has. -/
theorem Sink.Extends.has {a b : Sink} {text : String} (h : a.Extends b) (hhas : a.Has text) :
    b.Has text := by
  rcases hhas with ⟨x, y, ha⟩
  rcases h _ ha with ⟨more, hb⟩
  exact ⟨x, y ++ more, by rw [hb, List.append_assoc (x ++ _)]⟩

section Told

variable {sub : Substitution} (hsub : sub.Extends) {levels rest : Nat} {p q : Pipeline}
  {wiring w : Wiring} {s t : Session} {v : Visit} {err : Sink} {fate : Fate} {ended last : Ended}
  {result : Result} {text : String}

include hsub in
/-- The stages behind a stage extend its error sink. -/
theorem visitsFrom_last_extends {total i : Nat} {input : Input} {u : Visit} {vs : List Visit}
    (hv : v ∈ visitsFrom sub wiring total i input err p s) (hr : v.result = .ok ended)
    (hvs : visitsFrom sub wiring total i input err p s = vs ++ [u]) (hu : u.result = .ok last) :
    ended.err.Extends last.err := by
  -- A stage keeps what is in the error output, so it is enough to follow the stages to the last
  -- one.
  induction p generalizing i input err s vs with
  | nil => cases hv
  | cons command rest ih =>
      rcases @visitsFrom_cons_cases sub wiring total i input err command rest s with
        ⟨w, -, ⟨passed, ⟨hpass, -⟩, hcons⟩ | ⟨-, hcons⟩⟩ <;> rw [hcons] at hv hvs
      · rcases List.cons_eq_append_iff.1 hvs with ⟨-, htail⟩ | ⟨vs', -, htail⟩
        · -- There is no stage behind it.
          rcases List.cons.inj htail with ⟨rfl, hnil⟩
          rw [← hnil, List.mem_singleton] at hv
          rw [← hv, hr] at hu
          cases hu
          exact .refl _
        · rcases List.mem_cons.1 hv with rfl | hrest
          · -- The last stage was started behind it.
            rw [hr] at hpass
            cases hpass
            have hu' := List.mem_append_right vs' (List.mem_singleton_self u)
            rw [← htail] at hu'
            rcases (visitsFrom_runs hu').exists_meets hu with ⟨fate, hmeets⟩
            exact (visitsFrom_err_extends hsub hu').trans (hmeets.err_extends hsub)
          · exact ih hrest htail
      · rcases List.append_eq_singleton_iff.1 hvs.symm with ⟨-, hu'⟩ | ⟨-, hu'⟩
        · cases hu'
          rcases List.mem_singleton.1 hv
          rw [hr] at hu
          cases hu
          exact .refl _
        · cases hu'

include hsub in
/-- What stands in the error sink of a stage is found in the answer of its pipeline. -/
theorem visits_told (hcapture : wiring.captureErrors = true) (hv : v ∈ visits sub wiring p s)
    (hr : v.result = .ok ended) (hrun : runOn (runWith sub p wiring) s = (.ok result, t))
    (htext : text ≠ "") (hhas : ended.err.Has text) : Tells result.stderr text := by
  have hp : p ≠ [] := List.ne_nil_of_mem (command_mem_of_visits hv)
  rcases @exists_last_visit sub wiring p s hp with ⟨vs, u, hvs⟩
  have hu : u ∈ visits sub wiring p s := by simp [hvs]
  cases hlast : u.result with
  | error e =>
      rw [runOn_runWith_of_error hu hlast] at hrun
      cases hrun
  | ok last =>
      rcases (visitsFrom_last_extends hsub hv hr hvs hlast).has hhas with ⟨x, y, herr⟩
      rw [runOn_runWith hvs, Visit.conclusion, hlast] at hrun
      cases hrun
      simp only [Wiring.resultOf, hcapture, if_true, herr]
      exact tells_decodeLossy x y htext

/-- What a substitution left on its error stream stands in the error sink of the stage around it. -/
theorem Visit.Enters.has (h : v.Enters (substitutionWithin (levels + 1)) wiring q err t)
    (herr : ∃ bytes, err = .buffer bytes)
    (hmeets : v.Meets (substitutionWithin (levels + 1)) wiring fate ended) :
    ∃ result u, runOn (runWithin levels q wiring.nested) t.enter = (.ok result, u) ∧
      (result.stderr ≠ "" → ended.err.Has result.stderr) := by
  rcases h with ⟨front, back, text, hparts, hfront⟩
  rcases hmeets.expansion_extends with ⟨stage, err₁, t₁, hexp, hends⟩
  rcases expandStage_eq_ok hexp with ⟨text₁, hword⟩
  -- The expansion of the stage goes through the front, the substitution and what is behind it.
  rw [hparts, expandWord_append, runOn_bind_of_ok hfront] at hword
  simp only [expandWord, expandPart, bind_assoc, runOn_bind_eq_ok_iff] at hword
  rcases hword with ⟨⟨text₂, err₂⟩, t₂, hq, ⟨text₃, err₃⟩, t₃, hback, hend⟩
  rcases hend with ⟨_, _, hfirst, hsecond⟩
  cases hfirst
  cases hsecond
  rcases nest_eq_ok hq with ⟨result, u, hinner, hpass⟩
  refine ⟨result, u, hinner, ?_⟩
  intro hne
  have hwritten : err₂.Has result.stderr := by
    rcases herr with ⟨bytes, rfl⟩
    rw [passOn, if_neg (by simpa using hne), runOn_write_buffer] at hpass
    cases hpass
    exact ⟨bytes, [], by rw [List.append_nil]⟩
  have hback' := expandWord_extends (substitutionWithin_extends _) hback
  exact (hback'.trans hends).has hwritten

/-- What stands in the error sink of a stage is found in the answer of the run, from every level. -/
theorem Occurs.told (h : Occurs levels p wiring s rest w v) (hcapture : wiring.captureErrors = true)
    (hrun : runOn (runWithin levels p wiring) s = (.ok result, t)) (hr : v.result = .ok ended)
    (htext : text ≠ "") (hhas : ended.err.Has text) : Tells result.stderr text := by
  induction h generalizing result t with
  | here visited =>
      rw [runWithin_eq_runWith] at hrun
      exact visits_told (substitutionWithin_extends _) hcapture visited hr hrun htext hhas
  | @inside levels rest p q wiring w s t' err v v' visited entered _ ih =>
      -- The stage around the substitution came to its end, since the run did.
      cases hresult : v.result with
      | error e =>
          rw [runWithin_eq_runWith, runOn_runWith_of_error visited hresult] at hrun
          cases hrun
      | ok outer =>
          rcases (visitsFrom_runs visited).exists_meets hresult with ⟨fate, hmeets⟩
          have herr : ∃ bytes, err = .buffer bytes := by
            rcases (Occurs.here visited).err_eq_buffer hcapture with ⟨bytes, hv⟩
            rcases entered.extends (substitutionWithin_extends _) bytes hv with ⟨more, hmore⟩
            exact ⟨_, hmore⟩
          rcases entered.has herr hmeets with ⟨inner, u, hinner, hpassed⟩
          have htold : Tells inner.stderr text := ih hcapture hinner hr
          have hne : inner.stderr ≠ "" := htold.ne_empty htext
          rw [runWithin_eq_runWith] at hrun
          exact (visits_told (substitutionWithin_extends _) hcapture visited hresult hrun hne
            (hpassed hne)).trans htold

include hsub in
/-- If the shell has something to say about the end of a stage, then it says so, and the status is
not that of success. -/
theorem Visit.Meets.complains (h : v.Meets sub wiring fate ended)
    (herr : ∃ bytes, v.err = .buffer bytes) (hplain : ¬ v.command.Redirects .stderr)
    (htext : fate.complaint = some text) :
    ended.outcome.status ≠ 0 ∧ ended.err.Has (text ++ "\n") := by
  constructor
  · rw [h.outcome_eq]
    rcases fate with _ | _ | _ | ⟨_, _, _, _ | (_ | _), _⟩ | _ | _ | _
    all_goals cases htext
    all_goals simp [Fate.outcome, Outcome.status, notStartedCode, timedOutCode]
  · rcases herr with ⟨bytes, herr⟩
    -- The error output was in memory before the stage, and what was told since stands behind that.
    have hheard : ∀ {before after : Sink}, v.err.Extends before →
      before.Hears fate.complaint after →
        after.Has (text ++ "\n") := by
      intro before after hext heard
      rcases hext bytes herr with ⟨more, rfl⟩
      rw [htext] at heard
      exact ⟨bytes ++ more, [], by rw [heard.buffer, List.append_nil]⟩
    cases h with
    | unexpanded _ _ => cases htext
    | unopened expanded _ _ heard => exact hheard (expanded.extends hsub) heard
    | nameless _ _ => cases htext
    | @command stage files err out' err' err'' t fate ready _ ends heard =>
        have hnone : files.stderr = none := ready.stderr_eq_none hplain
        rcases ready with ⟨u, expanded, -, -⟩
        rw [StageFiles.errOr_of_none hnone] at ends
        simp only [StageFiles.settle, hnone, Option.isSome_none, Bool.false_eq_true, if_false]
        exact hheard ((expanded.extends hsub).trans ends.extends) heard

/-- The text is what the builtin leaves on its error output when it ends with the status. -/
def Builtin.Says (b : Builtin) (args : List String) (stdin : Option Bytes) (n : Int)
    (text : String) :
    Prop :=
  ∃ d d', d.err = .memory ∧ runOn (b args stdin) d = (.ok (.code n), d') ∧
    d'.err = .buffer (Utf8.encode text)

include hsub in
/-- A builtin that tells its failures, and fails, has said something, and it stands in the error
sink. -/
theorem Visit.Meets.says {b : Builtin} {name : String} {args : List String} {stdin : Option Bytes}
    {n : Int} {out : Sink}
    (h : v.Meets sub wiring (.builtin name args stdin (.ok (.code n)) out) ended)
    (herr : ∃ bytes, v.err = .buffer bytes) (hplain : ¬ v.command.Redirects .stderr)
    (hkeeps : sub.KeepsFrame) (hfound : v.before.table.lookup name = some b)
    (reports : Reports (b args stdin)) (hn : n ≠ 0) :
    ∃ text, text ≠ "" ∧ b.Says args stdin n text ∧ ended.err.Has text := by
  cases h with
  | @command stage files err out' err' err'' t fate ready _ ends heard =>
      have hnone : files.stderr = none := ready.stderr_eq_none hplain
      have htable : (t.starting stage).table = v.before.table :=
        Session.table_eq_of_frame_eq (ready.frame_eq hkeeps)
      rcases ready with ⟨u, expanded, -, -⟩
      rcases herr with ⟨bytes, herr⟩
      rcases expanded.extends hsub bytes herr with ⟨more, rfl⟩
      rw [StageFiles.errOr_of_none hnone] at ends
      cases ends with
      | @builtin b' _ _ desk found _ answered =>
          -- It worked at a desk with empty memory, and what it left there is added to the sink.
          rw [htable, hfound] at found
          cases found
          have hspoke := reports ⟨(t.starting stage).scene, (files.outOr v.out).handedOut,
            .memory⟩ [] rfl
          rw [show Sink.memory = (Sink.buffer (bytes ++ more)).handedOut from rfl, answered]
            at hspoke
          rcases hspoke with ⟨text, hdesk, hzero⟩
          have hdesk : desk.err = .buffer (Utf8.encode text) := hdesk
          refine ⟨text, fun hempty => hn ((hzero n rfl).2 hempty), ⟨_, desk, rfl, answered, hdesk⟩,
            ?_⟩
          cases heard
          refine ⟨bytes ++ more, [], ?_⟩
          simp [StageFiles.settle, hnone, hdesk, Sink.receive, Sink.held]

end Told

/-! ## Lines -/

/-- A scene in which events are recorded, one after the other. -/
def Scene.notingAll (s : Scene) (events : List Log.Event) : Scene :=
  let records := events.map fun event => ⟨event, s.host.stderr.written.length⟩
  { s with records := s.records ++ records }

theorem Scene.notingAll_nil (s : Scene) : s.notingAll [] = s := by
  rw [notingAll, List.map_nil, List.append_nil]

theorem Scene.notingAll_cons (s : Scene) (event : Log.Event) (events : List Log.Event) :
    s.notingAll (event :: events) = (s.noting event).notingAll events := by
  rw [notingAll, List.map_cons, List.append_cons]
  rfl

/-- Events that are noted one by one stand in order in the journal. -/
theorem Scene.journal_notingAll (s : Scene) (events : List Log.Event) :
    (s.notingAll events).journal = s.journal ++ events := by
  have hevents : (events.map fun event => (⟨event, s.host.stderr.written.length⟩ : Log.Record)).map
      Log.Record.event = events := by
    rw [List.map_map]
    exact List.map_id events
  rw [notingAll, journal, List.map_append, hevents]
  rfl

/-- A session that has recorded what it does with a line, up to the last step of reading it. -/
def Session.recording (s : Session) (line : String) : Session :=
  s.withScene (s.scene.notingAll
    (.executingLine (s.policy.line line) :: (Pipeline.trace line).map .reading))

/-- Reading a line notes its steps and does nothing else. -/
theorem runOn_notes (notes : List ReadingNote) (s : Session) :
    runOn (forIn notes PUnit.unit fun step _ => do
      Exec.note (.reading step)
      pure (ForInStep.yield PUnit.unit)) s =
        (.ok PUnit.unit, s.withScene (s.scene.notingAll (notes.map .reading))) := by
  induction notes generalizing s with
  | nil =>
      rw [List.map_nil, Scene.notingAll_nil]
      rfl
  | cons step notes ih =>
      rw [List.forIn_cons]
      simp only [bind_assoc, pure_bind]
      rw [runOn_bind_of_ok (runOn_note _ _), ih, List.map_cons, Scene.notingAll_cons]
      rfl

/-- A line that can be read is run as its pipeline, once its reading is recorded. -/
theorem runOn_run {line : String} {p : Pipeline} (h : Pipeline.parse line = .ok p) (wiring : Wiring)
    (s : Session) :
    runOn (Session.run line wiring) s = runOn (Session.execute p wiring) (s.recording line) := by
  rw [Session.run, runOn_bind_of_ok (runOn_get s), runOn_bind_of_ok (runOn_note _ _),
    runOn_bind_of_ok (runOn_notes _ _), h, Session.recording, Scene.notingAll_cons]
  rfl

/-- A line that can be read and leaves error output alone, run with all output kept. It ends in an
error if and only if some stage, at any level, is a builtin whose input was opened for it and cannot
be read: a directory, a file with a flaw, or a device without an end. The error is the fault of that
input. In every other case there is an answer: each stage that was run, at any level, met a fate,
and what the shell had to say about it is found in the error output of the answer, with a status
that is not that of success. So is what a builtin has to say for itself, and if it fails then it has
something to say; only `false` does not. -/
theorem failures_are_told (line : String) (p : Pipeline) (s : Session)
    (hparse : Pipeline.parse line = .ok p) (hplain : ErrorsUntouched p) :
    (∀ e, (∃ t, runOn (Session.run line .captured) s = (.error e, t)) ↔
      ∃ fault, e = .stream fault ∧
        ∃ rest w v, Occurs s.room p .captured (s.recording line) rest w v ∧
        v.Unreadable (substitutionWithin rest) w fault) ∧
    ∀ result t, runOn (Session.run line .captured) s = (.ok result, t) →
      ∀ rest w v, Occurs s.room p .captured (s.recording line) rest w v →
        ∃ fate ended, v.Meets (substitutionWithin rest) w fate ended ∧ v.result = .ok ended ∧
          ended.outcome = fate.outcome ∧
          (∀ text, fate.complaint = some text →
            ended.outcome.status ≠ 0 ∧ Tells result.stderr (text ++ "\n")) ∧
          ∀ name args stdin n out b, fate = .builtin name args stdin (.ok (.code n)) out →
            s.table.lookup name = some b → Builtin.standard.lookup name = some b →
            name ≠ "false" → n ≠ 0 →
            ∃ text, text ≠ "" ∧ b.Says args stdin n text ∧ Tells result.stderr text := by
  have hrun : runOn (Session.run line .captured) s =
      runOn (runWithin s.room p .captured) (s.recording line) := by
    rw [runOn_run hparse, Session.execute, runOn_bind_of_ok (runOn_get _)]
    rfl
  constructor
  · intro e
    rw [hrun]
    exact runWithin_error_iff rfl hplain
  · intro result t h rest w v hv
    rw [hrun] at h
    cases hr : v.result with
    | error e =>
        -- The error of a stage would be that of the line, which has an answer.
        rcases hv.runs_into hr with ⟨u, hbroken, -⟩
        have hboth := h.symm.trans hbroken
        cases hboth
    | ok ended =>
        rcases hv.runs.exists_meets hr with ⟨fate, hmeets⟩
        have herr := hv.err_eq_buffer rfl
        have hsub := substitutionWithin_extends rest
        refine ⟨fate, ended, hmeets, rfl, hmeets.outcome_eq, ?_, ?_⟩
        · intro text htext
          rcases hmeets.complains hsub herr (hv.not_redirects hplain) htext with ⟨hstatus, hhas⟩
          exact ⟨hstatus, hv.told rfl h hr (append_newline_ne_empty text) hhas⟩
        · rintro name args stdin n out b rfl hfound hstandard hfalse hn
          rcases hmeets.says hsub herr (hv.not_redirects hplain)
            (substitutionWithin_keepsFrame rest) (by rw [hv.table_eq]; exact hfound)
              (standard_reports hstandard hfalse args stdin) hn with
            ⟨text, hne, hsays, hhas⟩
          exact ⟨text, hne, hsays, hv.told rfl h hr hne hhas⟩

/-! ## Two lines -/

def bareSession : Session :=
  { scene := { host := { disk := ({} : Disk).set [] (Disk.plainDirectory 0) } } }

/-- The command `echo` with its input from a path. -/
def echoFrom (path : String) : Command :=
  ⟨[.text "echo"], [], [⟨.stdin, false, [.text path]⟩]⟩

/-- The command `echo` with the output of a pipeline. -/
def echoInner (p : Pipeline) : Command :=
  ⟨[.text "echo"], [[.substitution p]], []⟩

theorem errorsUntouched_echoFrom (path : String) : ErrorsUntouched [echoFrom path] := by
  refine .intro ?_ ?_
  · simp [echoFrom, Stage.Redirects]
  · simp [echoFrom, Stage.parts]

theorem errorsUntouched_echoInner {p : Pipeline} (h : ErrorsUntouched p) :
    ErrorsUntouched [echoInner p] := by
  refine .intro ?_ ?_
  · simp [echoInner, Stage.Redirects]
  · intro c hc q hq
    rw [List.mem_singleton] at hc
    subst hc
    have hpq : q = p := by simpa [echoInner, Stage.parts] using hq
    rw [hpq]
    exact h

/-- The inner stage of this line opens a file that is not there. -/
theorem parse_unopened :
    Pipeline.parse "echo $(echo < /nope)" = .ok [echoInner [echoFrom "/nope"]] := by
  with_unfolding_all rfl

/-- What the line `echo $(echo < /nope)` prints and says. -/
theorem run_unopened :
    ∃ t, runOn (Session.run "echo $(echo < /nope)" .captured) bareSession =
      (.ok { stdout := "\n", stderr := "minsh: /nope: No such file or directory\n" }, t) := by
  refine ⟨_, runOn_eq_ok ?_⟩
  rw [runOn_run parse_unopened]
  decide +kernel

/-- A target that cannot be opened is told from inside a substitution. -/
theorem unopened_target_is_told :
    ∃ t, runOn (Session.run "echo $(echo < /nope)" .captured) bareSession =
        (.ok { stdout := "\n", stderr := "minsh: /nope: No such file or directory\n" }, t) ∧
      ∀ rest w v, Occurs 64 [echoInner [echoFrom "/nope"]] .captured
        (bareSession.recording "echo $(echo < /nope)") rest w v →
        ∃ fate ended, v.Meets (substitutionWithin rest) w fate ended ∧
          ∀ text, fate.complaint = some text → ended.outcome.status ≠ 0 ∧
            Tells "minsh: /nope: No such file or directory\n" (text ++ "\n") := by
  have hplain := errorsUntouched_echoInner (errorsUntouched_echoFrom "/nope")
  rcases run_unopened with ⟨t, hanswer⟩
  refine ⟨t, hanswer, ?_⟩
  intro rest w v hv
  rcases (failures_are_told _ _ bareSession parse_unopened hplain).2 _ t hanswer rest w v hv with
    ⟨fate, ended, hmeets, -, -, hsaid, -⟩
  exact ⟨fate, ended, hmeets, hsaid⟩

/-- The line `echo < /` can be read and leaves error output alone, and yet it ends in an error. -/
theorem directory_ends_line :
    Pipeline.parse "echo < /" = .ok [echoFrom "/"] ∧ ErrorsUntouched [echoFrom "/"] ∧
      ∃ t, runOn (Session.run "echo < /" .captured) bareSession =
        (.error (.stream .isDirectory), t) := by
  have hparse : Pipeline.parse "echo < /" = .ok [echoFrom "/"] := by with_unfolding_all rfl
  refine ⟨hparse, errorsUntouched_echoFrom "/", ?_⟩
  rw [runOn_run hparse]
  exact ⟨_, rfl⟩

end LineShell
