import LineShell.Proofs.Cleanness
import LineShell.Proofs.NormalForm

/-!
# Forgery — lines that could forge a record

Of what a line records, lines, commands, names and numbers are clean. The values of variables, the
paths of targets, the names of programs and working directories are recorded as they are, so that a
control character in one of them, a line break for example, gets into the log. Such a text, recorded
by a stage at some level, is the only way in which an event of a line can be unclean.

* `Session.Quiet` — builtins of the session's own record nothing;
* `Visit.Spills` — a stage records a text that is not clean;
* `Visit.Notes.tidy`, `Visit.notes_unclean_iff` — what one stage records;
* `log_is_clean_iff_nothing_spills` — lines in general;
* `line_break_is_logged` — a line break in the value of a variable.
-/

namespace LineShell

/-! ## Builtins -/

/-- The builtins of the session are those that every session starts with, or they record nothing. -/
def Session.Quiet (s : Session) : Prop :=
  ∀ name b, s.table.lookup name = some b →
    (∃ known, Builtin.standard.lookup known = some b) ∨
      ∀ args stdin, Keeps (fun d : Desk => d.scene.journal) (b args stdin)

/-- The computation records events at its desk, all of which are as `P` says. -/
def Records {α : Type} (P : Log.Event → Prop) (x : Action α) (d : Desk) : Prop :=
  ∃ events, (runOn x d).2.scene.journal = d.scene.journal ++ events ∧ ∀ e ∈ events, P e

namespace Records

variable {α β : Type} {P : Log.Event → Prop} {x : Action α} {f : α → Action β} {d : Desk}

theorem pure (a : α) : Records P (Pure.pure a : Action α) d :=
  ⟨[], by simp, by simp⟩

theorem bind (hx : Records P x d) (hf : ∀ a d', Records P (f a) d') : Records P (x >>= f) d := by
  unfold Records at hx ⊢
  rw [runOn_bind]
  rcases hr : runOn x d with ⟨error | a, d'⟩ <;> rw [hr] at hx
  · exact hx
  · rcases hx with ⟨xs, hxs, hP⟩
    rcases hf a d' with ⟨ys, hys, hP'⟩
    refine ⟨xs ++ ys, ?_, ?_⟩
    · calc (runOn (f a) d').2.scene.journal
          = d'.scene.journal ++ ys := hys
        _ = d.scene.journal ++ (xs ++ ys) := by rw [hxs, List.append_assoc]
    · intro e he
      exact (List.mem_append.1 he).elim (hP e) (hP' e)

/-- What leaves the journal alone records nothing. -/
theorem of_keeps (h : Keeps (fun d : Desk => d.scene.journal) x) : Records P x d :=
  ⟨[], by rw [List.append_nil]; exact h d, by simp⟩

theorem note {event : Log.Event} (h : P event) : Records P (Action.note event) d :=
  ⟨[event], d.scene.journal_noting event, by simpa using h⟩

/-- What an action records is what the journal grows by. -/
theorem grown (h : Records P x d) :
    ∃ Q, Grown d.scene.journal (runOn x d).2.scene.journal Q ∧ ∀ e, Q e → P e := by
  rcases h with ⟨events, hevents, hP⟩
  exact ⟨_, ⟨events, hevents, fun e => Iff.rfl⟩, hP⟩

end Records

/-- The event tells that a variable was removed, by its name. -/
def Log.Event.IsRemoval (e : Log.Event) : Prop :=
  ∃ name, isIdentifier name = true ∧ e = .unsetVariable name

theorem exportAll_keeps_journal (args : List String) :
    Keeps (fun d : Desk => d.scene.journal) (Builtin.exportAll args) := by
  induction args with
  | nil => exact .pure _
  | cons arg rest ih =>
      rw [Builtin.exportAll]
      refine .ite ?_ ?_
      · exact .bind (fun _ => rfl) fun _ => ih
      · exact .bind (complain_keeps_holdings _).journal fun _ => .bind ih fun _ => .pure _

/-- Unset records removals only. -/
theorem unsetAll_records (args : List String) (d : Desk) :
    Records Log.Event.IsRemoval (Builtin.unsetAll args) d := by
  induction args generalizing d with
  | nil => exact .pure _
  | cons arg rest ih =>
      rw [Builtin.unsetAll]
      dsimp only
      split
      · next hid =>
        refine .bind (.of_keeps fun _ => rfl) fun s _ => .bind (.of_keeps fun _ => rfl) fun _ _ =>
          ?_
        split
        · exact .bind (.note ⟨_, hid, rfl⟩) fun _ _ => ih _
        · exact ih _
      · refine .bind (.of_keeps (complain_keeps_holdings _).journal) fun _ _ => ?_
        exact .bind (ih _) fun _ _ => .pure _

/-- A builtin of a quiet session that is not `cd` records at most that variables were removed. -/
theorem Session.Quiet.records {s : Session} (hs : s.Quiet) {name : String} {b : Builtin}
    (hb : s.table.lookup name = some b) (hcd : b ≠ Builtin.cd) (args : List String)
    (stdin : Option Bytes) (d : Desk) : Records Log.Event.IsRemoval (b args stdin) d := by
  rcases hs name b hb with ⟨known, hknown⟩ | hquiet
  · rcases standard_custody hknown with ⟨-, rfl⟩ | ⟨-, rfl⟩ | ⟨-, rfl⟩ | hkeeps
    · exact (hcd rfl).elim
    · exact .of_keeps (exportAll_keeps_journal args)
    · exact unsetAll_records args d
    · exact .of_keeps (hkeeps args stdin).journal
  · exact .of_keeps (hquiet args stdin)

/-- `cd` records where it comes from and where it leads, if it succeeds. -/
theorem cd_grown (args : List String) (stdin : Option Bytes) (d : Desk) :
    Grown d.scene.journal (runOn (Builtin.cd args stdin) d).2.scene.journal fun e =>
      ∃ desk, runOn (Builtin.cd args stdin) d = (.ok .success, desk) ∧
        e = .changingDirectory d.scene.cwd desk.scene.cwd := by
  rcases hrun : runOn (Builtin.cd args stdin) d with ⟨answer, desk⟩
  have hcd := runOn_cd args stdin d
  rw [hrun] at hcd
  -- Either nothing moved and nothing was noted, or one note tells of the move.
  rcases hcd with ⟨hfail, hstay⟩ | ⟨operand, -, hmoved, hdone⟩
  · have hjournal : desk.scene.journal = d.scene.journal := congrArg Prod.snd hstay
    rw [hjournal]
    refine (Grown.refl _).congr fun e => ?_
    simp only [false_iff]
    rintro ⟨_, hanswer, -⟩
    cases hanswer
    exact hfail rfl
  · have hcwd : desk.scene.cwd = Path.resolve d.scene.cwd operand :=
      congrArg (fun h => h.1.2) hmoved
    have hjournal : desk.scene.journal =
        d.scene.journal ++ [.changingDirectory d.scene.cwd (Path.resolve d.scene.cwd operand)] :=
      congrArg Prod.snd hmoved
    have hanswer : answer = .ok .success := hdone
    rw [hjournal, hanswer]
    refine (Grown.concat _ _).congr fun e => ?_
    simp [hcwd]

/-- A session that records nothing of its own is faithful. -/
theorem Session.Quiet.faithful {s : Session} (hs : s.Quiet) : s.Faithful := by
  intro name b hb args stdin d
  by_cases hcd : b = Builtin.cd
  · subst hcd
    exact ⟨_, cd_grown args stdin d⟩
  · rcases (hs.records hb hcd args stdin d).grown with ⟨Q, hQ, -⟩
    exact ⟨Q, hQ⟩

/-! ## Programs -/

/-- All that is recorded about a program is clean but for its name. -/
theorem programEvents_tidy {s : Session} {name : String} {args : List String} {input : Feed}
    {out err : Sink} {e : Log.Event} (he : e ∈ s.programEvents name args input out err) :
    e.Tidy ∧ ∀ text ∈ e.raw, text = name := by
  rw [Session.programEvents, List.mem_cons] at he
  rcases he with rfl | he
  · exact ⟨trivial, by simp [Log.Event.raw]⟩
  · -- Behind the launch, either the fault is told or the end, and before that the input that was
    -- left.
    cases hstart : s.start name args input out err with
    | error fault =>
        rw [hstart, List.mem_singleton] at he
        subst he
        exact ⟨fault.plain, by simp [Log.Event.raw]⟩
    | ok left =>
        rw [hstart, List.mem_append] at he
        rcases he with hunread | hended
        · have hbroken : ∃ code, e = .feedEndedEarly (.os code) := by
            unfold Feed.unreadEvents at hunread
            split at hunread
            · rcases List.mem_map.1 hunread with ⟨code, -, rfl⟩
              exact ⟨code, rfl⟩
            · cases hunread
          rcases hbroken with ⟨code, rfl⟩
          exact ⟨trivial, by simp [Log.Event.raw]⟩
        · split at hended
          · rw [List.mem_singleton] at hended
            subst hended
            exact ⟨trivial, by simp [Log.Event.raw]⟩
          · rw [List.mem_singleton] at hended
            subst hended
            exact ⟨trivial, by simp [Log.Event.raw]⟩

/-! ## Stages -/

/-- The stage records a text with a control character: the value of a variable as the policy lets it
appear, the path of a target that is opened, the name of a program, or a working directory that is
left or entered. -/
inductive Visit.Spills (sub : Substitution) (wiring : Wiring) (v : Visit) : Prop where
  | value {name : String} {t : Session} (asks : v.Asks sub wiring name t)
      (unclean : ¬ Text.Clean (t.shown name)) : Spills sub wiring v
  | target {r : Redirection String} {t : Session} {found : Disk ×
    Handle} (opens : v.Opens sub wiring r t)
      (opened : t.scene.host.disk.openFor r.role r.append (Path.resolve t.scene.cwd r.target) =
        .ok found)
      (unclean : ¬ Text.Clean (Path.resolve t.scene.cwd r.target)) : Spills sub wiring v
  | program {stage : Stage String} {files : StageFiles} {err : Sink} {t : Session}
      (ready : v.Ready sub wiring stage files err t) (named : stage.name.isEmpty = false)
      (absent : t.table.lookup stage.name = none) (unclean : ¬ Text.Clean stage.name) :
        Spills sub wiring v
  | directory {stage : Stage String} {stdin : Option Bytes} {files : StageFiles} {err : Sink}
    {t : Session}
      {desk : Desk} (performs : v.Performs sub wiring stage Builtin.cd stdin files err t)
      (moved : runOn (Builtin.cd stage.args stdin) (v.desk stage files err t) =
        (.ok .success, desk))
      (unclean : ¬ Text.Clean t.scene.cwd ∨ ¬ Text.Clean desk.scene.cwd) : Spills sub wiring v

section Stages

variable {sub : Substitution} {wiring : Wiring} {v : Visit} {stage : Stage String}
  {files : StageFiles} {err : Sink} {t : Session} {e : Log.Event}

/-- What is recorded while a command runs, given where: what `cd` says, what a program says, or
removals. -/
theorem Visit.Ready.logs_cases (ready : v.Ready sub wiring stage files err t)
    (named : stage.name.isEmpty = false) (ht : t.Quiet)
    (logged : Logs (runCommand stage files v.input v.out err) (t.starting stage) e) :
    (t.table.lookup stage.name = none ∧ e.Tidy ∧ ∀ text ∈ e.raw, text = stage.name) ∨
    (∃ stdin desk, v.Performs sub wiring stage Builtin.cd stdin files err t ∧
      runOn (Builtin.cd stage.args stdin) (v.desk stage files err t) = (.ok .success, desk) ∧
      e = .changingDirectory t.scene.cwd desk.scene.cwd) ∨
    e.IsRemoval := by
  cases hb : t.table.lookup stage.name with
  | none =>
      have hmem := logged.of_books (runCommand_books_of_absent hb)
      exact .inl ⟨rfl, programEvents_tidy hmem⟩
  | some b =>
      refine .inr ?_
      rcases builtinInput_cases files.stdin v.input (t.starting stage) with
        ⟨stdin, hin⟩ | ⟨handle, fault, -, -, hin⟩
      · by_cases hcd : b = Builtin.cd
        · subst hcd
          have hgrown := cd_grown stage.args stdin (v.desk stage files err t)
          rcases logged.of_books (runCommand_books_of_builtin hb hin hgrown) with ⟨desk, hmoved, he⟩
          exact .inl ⟨stdin, desk, ⟨ready, named, hb, hin⟩, hmoved, he⟩
        · rcases (ht.records hb hcd stage.args stdin (v.desk stage files err t)).grown
            with ⟨Q, hgrown, hremoval⟩
          exact .inr (hremoval e (logged.of_books (runCommand_books_of_builtin hb hin hgrown)))
      · exact (logged.of_books (runCommand_books_of_unreadable hb hin)).elim

theorem Stage.parts_eq_flatten (c : Command) : c.parts = c.words.flatten := by
  simp [Stage.parts, Stage.words]

/-- Only identifiers are asked for in a normal command. -/
theorem Visit.Asks.isIdentifier {name : String} (h : v.Asks sub wiring name t)
    (hnormal : v.command.Normal) :
    isIdentifier name = true := by
  rcases h with ⟨front, back, text, err, hparts, -⟩
  have hmem : Part.var name ∈ v.command.words.flatten := by
    rw [← Stage.parts_eq_flatten, hparts]
    simp
  rcases List.mem_flatten.1 hmem with ⟨w, hw, hpart⟩
  exact (hnormal.words w hw).2.parts _ hpart

/-- What a normal command opens has a normal role. -/
theorem Visit.Opens.normal {r : Redirection String} (h : v.Opens sub wiring r t)
    (hnormal : v.command.Normal) :
    r.role.Normal := by
  rcases h with ⟨stage, err, u, front, back, files, hexp, -, hrs, -⟩
  have hredirects : stage.Redirects r.role := ⟨r, by simp [hrs], rfl⟩
  rcases (expandStage_redirects hexp _).1 hredirects with ⟨r', hr', hrole⟩
  rw [← hrole]
  exact hnormal.roles r' hr'

theorem Role.Normal.clean_digits {digits : String} (h : (Role.descriptor digits).Normal) :
    Text.Clean digits := by
  intro c hc
  exact Text.isControl_of_isDigit (List.all_eq_true.1 h.2.1 c hc)

/-- A normal role is shown as clean text. -/
theorem Role.Normal.clean {role : Role} (h : role.Normal) : Text.Clean role.render := by
  cases role with
  | stdin => decide
  | stdout => decide
  | stderr => decide
  | descriptor digits => exact Text.clean_append.2 ⟨by decide, h.clean_digits⟩

/-- Apart from the raw texts, what a stage of a line records is clean. -/
theorem Visit.Notes.tidy (h : v.Notes sub wiring e) (hnormal : v.command.Normal)
    (hquiet : ∀ stage files err t, v.Ready sub wiring stage files err t → t.Quiet) : e.Tidy := by
  cases h with
  | value asks => exact Text.clean_of_isIdentifier (asks.isIdentifier hnormal)
  | target opens noted =>
      rcases noted with ⟨-, rfl | ⟨digits, hrole, rfl⟩⟩
      · exact (opens.normal hnormal).clean
      · have hdigits := opens.normal hnormal
        rw [hrole] at hdigits
        exact hdigits.clean_digits
  | start ready named => exact Log.clean_sanitize _
  | command ready named logged =>
      rcases ready.logs_cases named (hquiet _ _ _ _ ready) logged with
        ⟨-, htidy, -⟩ | ⟨stdin, desk, -, -, rfl⟩ | ⟨name, hname, rfl⟩
      · exact htidy
      · trivial
      · exact Text.clean_of_isIdentifier hname

/-- A stage records an unclean event if and only if it spills. -/
theorem Visit.notes_unclean_iff (hnormal : v.command.Normal)
    (hquiet : ∀ stage files err t, v.Ready sub wiring stage files err t → t.Quiet) :
    (∃ e, v.Notes sub wiring e ∧ ¬ e.Clean) ↔ v.Spills sub wiring := by
  constructor
  · rintro ⟨e, hnotes, hunclean⟩
    rw [Log.Event.clean_iff (hnotes.tidy hnormal hquiet)] at hunclean
    cases hnotes with
    | value asks => exact .value asks (by simpa [Log.Event.raw] using hunclean)
    | target opens noted =>
        rcases noted with ⟨⟨found, hopened⟩, rfl | ⟨digits, -, rfl⟩⟩
        · exact .target opens hopened (by simpa [Log.Event.raw] using hunclean)
        · simp [Log.Event.raw] at hunclean
    | start ready named => simp [Log.Event.raw] at hunclean
    | command ready named logged =>
        rcases ready.logs_cases named (hquiet _ _ _ _ ready) logged with
          ⟨absent, -, hraw⟩ | ⟨stdin, desk, performs, moved, rfl⟩ | ⟨name, -, rfl⟩
        · refine .program ready named absent fun hclean => hunclean ?_
          intro text htext
          rw [hraw text htext]
          exact hclean
        · refine .directory performs moved ?_
          simpa [Log.Event.raw, imp_iff_not_or] using hunclean
        · simp [Log.Event.raw] at hunclean
  · intro h
    -- In each case one event carries the text as it is.
    suffices hraw : ∃ e, v.Notes sub wiring e ∧ ∃ text ∈ e.raw, ¬ Text.Clean text by
      rcases hraw with ⟨e, hnotes, text, htext, hunclean⟩
      refine ⟨e, hnotes, fun hclean => hunclean ?_⟩
      exact (Log.Event.clean_iff (hnotes.tidy hnormal hquiet)).1 hclean text htext
    cases h with
    | value asks unclean => exact ⟨_, .value asks, _, by simp [Log.Event.raw], unclean⟩
    | target opens opened unclean =>
        exact ⟨_, .target opens ⟨⟨_, opened⟩, .inl rfl⟩, _, by simp [Log.Event.raw], unclean⟩
    | @program stage files err t ready named absent unclean =>
        refine ⟨.spawning stage.name stage.args.length, .command ready named ?_,
          _, by simp [Log.Event.raw], unclean⟩
        exact ⟨_, runCommand_books_of_absent absent, List.mem_cons_self⟩
    | @directory stage stdin files err t desk performs moved unclean =>
        refine ⟨.changingDirectory t.scene.cwd desk.scene.cwd,
          .command performs.ready performs.named ?_, ?_⟩
        · have hgrown := cd_grown stage.args stdin (v.desk stage files err t)
          exact ⟨_, runCommand_books_of_builtin performs.found performs.fed hgrown, desk, moved,
            rfl⟩
        · simpa [Log.Event.raw] using unclean

end Stages

/-! ## Lines -/

section Lines

variable {levels rest : Nat} {p : Pipeline} {wiring w : Wiring} {s : Session} {v : Visit}
  {line : String}

/-- What is nested in a stage is nested in its pipeline. -/
theorem Pipeline.Holds.of_parts {c : Command} {q stages : Pipeline} {depth : Nat} (hc : c ∈ p)
    (hpart : .substitution stages ∈ c.parts) (h : stages.Holds depth q) :
    p.Holds (depth + 1) q := by
  rw [Stage.parts_eq_flatten] at hpart
  rcases List.mem_flatten.1 hpart with ⟨word, hword, hmem⟩
  exact .inside hc hword hmem h

/-- Every stage that occurs in a normal pipeline is normal. -/
theorem Occurs.normal (h : Occurs levels p wiring s rest w v)
    (hp : ∀ depth q, p.Holds depth q → ∀ c ∈ q, c.Normal) : v.command.Normal := by
  induction h with
  | here visited => exact hp 0 _ (.here _) _ (command_mem_of_visits visited)
  | inside visited entered _ ih =>
      refine ih fun depth q hq => hp (depth + 1) q ?_
      exact .of_parts (command_mem_of_visits visited) entered.mem_parts hq

/-- Every stage that a line reaches is normal. -/
theorem Session.Reaches.normal (h : s.Reaches line wiring rest w v) : v.command.Normal := by
  rcases h with ⟨p, hparse, hv⟩
  refine hv.normal fun depth q hq => ?_
  rcases parseWithin_eq_ok_iff.1 hparse with ⟨hgrammatical, rfl⟩
  rcases exists_nested_of_holds hgrammatical hq with ⟨found, -, rfl⟩
  exact normal_groupedWithin _ found

/-- A quiet session is quiet at every stage. -/
theorem Session.Reaches.quiet (h : s.Reaches line wiring rest w v) (hs : s.Quiet)
    {stage : Stage String} {files : StageFiles} {err : Sink} {t : Session}
    (ready : v.Ready (substitutionWithin rest) w stage files err t) :
    t.Quiet := by
  unfold Session.Quiet
  rw [h.table_eq ready]
  exact hs

/-- A line in a session whose own builtins record nothing adds events to the journal, whatever it
ends in. All of them are free of control characters if and only if no stage, at any level, spills:
expands a variable that is shown with one, opens a target at a path with one, runs a program whose
name has one, or changes the directory from or to one. -/
theorem log_is_clean_iff_nothing_spills (s : Session) (hs : s.Quiet) (line : String)
    (wiring : Wiring) :
    ∃ events, (runOn (Session.run line wiring) s).2.scene.journal = s.scene.journal ++ events ∧
      ((∀ e ∈ events, e.Clean) ↔
        ∀ rest w v, s.Reaches line wiring rest w v → ¬ v.Spills (substitutionWithin rest) w) := by
  rcases run_books hs.faithful line wiring with ⟨events, hjournal, hevents⟩
  refine ⟨events, hjournal, ?_⟩
  constructor
  · intro hclean rest w v hv hspills
    rcases (Visit.notes_unclean_iff hv.normal fun _ _ _ _ => hv.quiet hs).2 hspills
      with ⟨e, hnotes, hunclean⟩
    refine hunclean (hclean e ((hevents e).2 (.inr (.inr ?_))))
    rcases hv with ⟨p, hparse, hv⟩
    exact ⟨p, hparse, hv.runLog hnotes⟩
  · intro hnone e he
    rcases (hevents e).1 he with rfl | ⟨step, -, rfl⟩ | ⟨p, hparse, hlog⟩
    · exact Log.Event.clean_of_raw_eq_nil (s.policy.clean_line line) rfl
    · exact Log.Event.clean_of_raw_eq_nil trivial rfl
    · by_contra hunclean
      -- Starts and ends of stages are clean, so it is an event of some stage.
      have hcounts : ¬ e.Counts := by
        intro hcounts
        cases e with
        | stageStarting _ _ => exact hunclean (Log.Event.clean_of_raw_eq_nil trivial rfl)
        | stageFinished _ _ => exact hunclean (Log.Event.clean_of_raw_eq_nil trivial rfl)
        | _ => exact hcounts
      rcases hlog.occurs hcounts with ⟨rest, w, v, hv, hnotes⟩
      have hreaches : s.Reaches line wiring rest w v := ⟨p, hparse, hv⟩
      refine hnone rest w v hreaches ?_
      exact (Visit.notes_unclean_iff hreaches.normal fun _ _ _ _ => hreaches.quiet hs).1 ⟨e, hnotes,
        hunclean⟩

end Lines

/-! ## A forged record -/

/-- A session with a variable whose value has a line break. -/
def forgingSession : Session :=
  { scene := { env := ({} : Environment).set "A" "x\ny" } }

/-- The line break of the value stands in the journal. -/
theorem forgingSession_logs :
    .expandedVariable "A" "x\ny" ∈
      (runOn (Session.run "echo $A" .captured) forgingSession).2.scene.journal := by
  have hparse : Pipeline.parse "echo $A" = .ok [⟨[.text "echo"], [[.var "A"]], []⟩] := by
    with_unfolding_all rfl
  rw [runOn_run hparse]
  decide +kernel

/-- The line break gets into the log with the value of the variable. -/
theorem line_break_is_logged :
    forgingSession.scene.journal = [] ∧
      ∃ e ∈ (runOn (Session.run "echo $A" .captured) forgingSession).2.scene.journal,
        ∃ field ∈ e.fields, '\n' ∈ field.2.toList := by
  refine ⟨rfl, _, forgingSession_logs, ("value", "x\ny"), ?_, ?_⟩
  · simp [Log.Event.fields]
  · simp

/-- It was spilled by a stage. -/
theorem line_break_is_spilled :
    forgingSession.Quiet ∧ ∃ rest w v, forgingSession.Reaches "echo $A" .captured rest w v ∧
      v.Spills (substitutionWithin rest) w := by
  have hquiet : forgingSession.Quiet := fun name b hb => .inl ⟨name, hb⟩
  refine ⟨hquiet, ?_⟩
  rcases log_is_clean_iff_nothing_spills forgingSession hquiet "echo $A" .captured
    with ⟨events, hjournal, hiff⟩
  by_contra hnone
  have hclean : ∀ e ∈ events, e.Clean := by
    refine hiff.2 fun rest w v hv hspills => ?_
    exact hnone ⟨rest, w, v, hv, hspills⟩
  have hmem : Log.Event.expandedVariable "A" "x\ny" ∈ events := by
    have hlogs := forgingSession_logs
    rw [hjournal] at hlogs
    exact hlogs
  have hvalue : Text.Clean "x\ny" := hclean _ hmem ("value", "x\ny") (by simp [Log.Event.fields])
  exact absurd hvalue (by decide)

end LineShell
