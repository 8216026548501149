import LineShell.Proofs.Custody

/-!
# LogBook — what a run records

While a line runs, its journal only grows. This file says which events are added, exactly: those of
the stages that are run, at whatever level, and of each stage those of its variables, its targets
and its command.

* `Grown` — a journal has grown by exactly these events;
* `Books` — a computation of the shell lets the journal grow so, and `Books.bind`;
* `Visit.Notes` — the events that a stage records by itself;
* `RunLog` — the events of a pipeline with all that is nested in it;
* `runWithin_books`, `run_books` — pipelines and lines record these events and no others;
* `RunLog.occurs`, `Occurs.runLog` — an event that does not merely count stages is the event of a
  stage.
-/

namespace LineShell

/-! ## Growing journals -/

/-- The journal has grown from one to the other by exactly the events `Q`. -/
def Grown (before after : List Log.Event) (Q : Log.Event → Prop) : Prop :=
  ∃ events, after = before ++ events ∧ ∀ e, e ∈ events ↔ Q e

namespace Grown

variable {a b c : List Log.Event} {Q R : Log.Event → Prop}

theorem refl (a : List Log.Event) : Grown a a fun _ => False :=
  ⟨[], by simp, by simp⟩

theorem concat (a : List Log.Event) (event : Log.Event) : Grown a (a ++ [event]) (· = event) :=
  ⟨[event], rfl, by simp⟩

theorem trans (hab : Grown a b Q) (hbc : Grown b c R) : Grown a c fun e => Q e ∨ R e := by
  rcases hab with ⟨xs, rfl, hxs⟩
  rcases hbc with ⟨ys, rfl, hys⟩
  refine ⟨xs ++ ys, List.append_assoc a xs ys, ?_⟩
  intro e
  rw [List.mem_append, hxs, hys]

theorem congr (h : Grown a b Q) (hQR : ∀ e, Q e ↔ R e) : Grown a b R := by
  rcases h with ⟨xs, hb, hxs⟩
  exact ⟨xs, hb, fun e => (hxs e).trans (hQR e)⟩

/-- Which events were added is settled by the two journals. -/
theorem iff (h : Grown a b Q) (h' : Grown a b R) (e : Log.Event) : Q e ↔ R e := by
  rcases h with ⟨xs, hb, hxs⟩
  rcases h' with ⟨ys, hb', hys⟩
  have hsame : xs = ys := List.append_cancel_left (hb.symm.trans hb')
  rw [← hxs, ← hys, hsame]

end Grown

def Session.journal (s : Session) : List Log.Event :=
  s.scene.journal

theorem Grown.noting (s : Session) (event : Log.Event) :
    Grown s.journal (s.noting event).journal (· = event) := by
  have hjournal : (s.noting event).journal = s.journal ++ [event] := s.scene.journal_noting event
  rw [hjournal]
  exact .concat _ _

/-- The computation, run from the session, records exactly the events `Q`. -/
def Books {α : Type} (x : Exec α) (s : Session) (Q : Log.Event → Prop) : Prop :=
  Grown s.journal (runOn x s).2.journal Q

/-- The computation, run from the session, records the event among others. -/
def Logs {α : Type} (x : Exec α) (s : Session) (e : Log.Event) : Prop :=
  ∃ Q, Books x s Q ∧ Q e

section Books

variable {α β : Type} {x : Exec α} {f : α → Exec β} {s t : Session} {Q R : Log.Event → Prop}

/-- What an action logs is what it books. -/
theorem Books.logs_iff (h : Books x s Q) (e : Log.Event) : Logs x s e ↔ Q e := by
  constructor
  · rintro ⟨R, hR, he⟩
    exact (hR.iff h e).1 he
  · intro he
    exact ⟨Q, h, he⟩

theorem Logs.of_books {e : Log.Event} (h : Logs x s e) (hbooks : Books x s Q) : Q e :=
  (hbooks.logs_iff e).1 h

/-- What leaves the journal alone books nothing. -/
theorem Keeps.books (h : Keeps Session.journal x) : Books x s fun _ => False := by
  unfold Books
  rw [h s]
  exact .refl _

theorem books_pure (a : α) (s : Session) : Books (pure a : Exec α) s fun _ => False :=
  .refl _

theorem books_note (event : Log.Event) (s : Session) : Books (Exec.note event) s (· = event) :=
  .noting _ _

/-- What is recorded by two computations in a row, if the second is run at all. -/
theorem Books.bind {R : α → Session → Log.Event → Prop} (hx : Books x s Q)
    (hf : ∀ a t, runOn x s = (.ok a, t) → Books (f a) t (R a t)) :
    Books (x >>= f) s fun e => Q e ∨ ∃ a t, runOn x s = (.ok a, t) ∧ R a t e := by
  unfold Books at hx ⊢
  rw [runOn_bind]
  rcases hr : runOn x s with ⟨e | a, t⟩ <;> rw [hr] at hx
  · exact hx.congr (by simp)
  · exact (hx.trans (hf a t hr)).congr (by simp [and_assoc])

/-- A bind books what its first action books and then what the second does. -/
theorem Books.bind_of_ok {a : α} (hx : Books x s Q) (hr : runOn x s = (.ok a, t))
    (hf : Books (f a) t R) :
    Books (x >>= f) s fun e => Q e ∨ R e := by
  unfold Books at hx ⊢
  rw [runOn_bind_of_ok hr]
  rw [hr] at hx
  exact hx.trans hf

/-- A map books what its action books. -/
theorem Books.map {γ : Type} {g : α → γ} (hx : Books x s Q) : Books (g <$> x) s Q := by
  unfold Books
  rw [runOn_map]
  exact hx

end Books

/-! ## Steps that record nothing -/

theorem write_keeps_journal (sink : Sink) (bs : Bytes) :
    Keeps Session.journal (Exec.write sink bs) := by
  intro s
  rw [runOn_write]
  split <;> rfl

theorem report_keeps_journal (sink : Sink) (text : String) :
    Keeps Session.journal (Exec.report sink text) :=
  write_keeps_journal sink _

theorem passOn_keeps_journal (err : Sink) (text : String) :
    Keeps Session.journal (passOn err text) := by
  unfold passOn
  split
  · exact .pure _
  · exact write_keeps_journal _ _

theorem refuse_keeps_journal (q : Pipeline) (wiring : Wiring) (err : Sink) :
    Keeps Session.journal (refuse q wiring err) :=
  .bind .get fun _ => .bind (report_keeps_journal _ _) fun _ => .bind (fun _ => rfl) fun _ =>
    .pure _

/-! ## Words -/

/-- The value of a variable as the session lets it appear in the log. -/
def Session.shown (s : Session) (name : String) : String :=
  s.policy.redactVariable name ((s.scene.env.get? name).getD "")

section Words

variable {sub : Substitution} {wiring : Wiring} {err : Sink} {s : Session}
  {S : Pipeline → Sink → Session → Log.Event → Prop}

/-- What a part records: a variable that it was expanded, a substitution whatever `S` says. -/
def Part.Notes (S : Pipeline → Sink → Session → Log.Event → Prop) (err : Sink) (s : Session) :
    Part → Log.Event → Prop
  | .text _, _ => False
  | .var name, e => e = .expandedVariable name (s.shown name)
  | .substitution q, e => S q err s e

/-- What a word records: the events of each part that is come to. -/
def Word.Notes (sub : Substitution) (wiring : Wiring)
    (S : Pipeline → Sink → Session → Log.Event → Prop) (err : Sink) (s : Session) (w : Word)
    (e : Log.Event) : Prop :=
  ∃ front part back text err' t, w = front ++ part :: back ∧
    runOn (expandWord sub wiring err front) s = (.ok (text, err'), t) ∧ part.Notes S err' t e

/-- A word notes what its first part notes and then what the others do. -/
theorem Word.notes_cons_iff {part : Part} {rest : Word} {e : Log.Event} :
    Word.Notes sub wiring S err s (part :: rest) e ↔
      part.Notes S err s e ∨ ∃ first t, runOn (expandPart sub wiring err part) s = (.ok first, t) ∧
        Word.Notes sub wiring S first.2 t rest e := by
  constructor
  · rintro ⟨front, part', back, text, err', t, hw, hfront, hnotes⟩
    -- The part in question is the first one, or the first one was expanded before it.
    cases front with
    | nil =>
        cases hw
        cases hfront
        exact .inl hnotes
    | cons _ front =>
        cases hw
        rw [expandWord, runOn_bind_eq_ok_iff] at hfront
        rcases hfront with ⟨first, u, hfirst, hrest⟩
        rw [runOn_bind_eq_ok_iff] at hrest
        rcases hrest with ⟨⟨tail, err''⟩, u', htail, hend⟩
        cases hend
        exact .inr ⟨first, u, hfirst, front, part', back, tail, err', t, rfl, htail, hnotes⟩
  · rintro (hnotes | ⟨first, t, hfirst, front, part', back, text, err', u, rfl, hfront, hnotes⟩)
    · exact ⟨[], part, rest, "", err, s, rfl, rfl, hnotes⟩
    · refine ⟨part :: front, part', back, first.1 ++ text, err', u, rfl, ?_, hnotes⟩
      rw [expandWord, runOn_bind_of_ok hfirst, runOn_bind_of_ok hfront]
      rfl

/-- A word records the events of its parts, provided that its substitutions record what `S` says. -/
theorem expandWord_books {w : Word}
    (hsub : ∀ front q back text err' t, w = front ++ .substitution q :: back →
      runOn (expandWord sub wiring err front) s = (.ok (text, err'), t) →
      Books (sub q wiring err') t (S q err' t)) :
    Books (expandWord sub wiring err w) s (Word.Notes sub wiring S err s w) := by
  induction w generalizing err s with
  | nil =>
      refine (books_pure _ s).congr fun e => ?_
      simp [Word.Notes]
  | cons part rest ih =>
      have hpart : Books (expandPart sub wiring err part) s (part.Notes S err s) := by
        cases part with
        | text _ => exact books_pure _ s
        | var name => exact books_note _ s
        | substitution q => exact hsub [] q rest "" err s rfl rfl
      refine (hpart.bind (R := fun first t => Word.Notes sub wiring S first.2 t rest) ?_).congr
        fun e => Word.notes_cons_iff.symm
      intro first t hfirst
      refine ((ih ?_).bind fun tail u _ => books_pure _ u).congr (by simp)
      intro front q back text err' u hback hfront
      refine hsub (part :: front) q back (first.1 ++ text) err' u (by rw [hback]; rfl) ?_
      rw [expandWord, runOn_bind_of_ok hfirst, runOn_bind_of_ok hfront]
      rfl

end Words

/-! ## Targets -/

/-- What the opening of a target records. A descriptor that is not connected gets a note of its
own. -/
def Redirection.Notes (r : Redirection String) (s : Session) (e : Log.Event) : Prop :=
  (∃ opened, s.scene.host.disk.openFor r.role r.append (Path.resolve s.scene.cwd r.target) =
    .ok opened) ∧
    (e = .openedRedirection r.role (Path.resolve s.scene.cwd r.target) r.append ∨
      ∃ digits, r.role = .descriptor digits ∧ e = .descriptorNotConnected digits)

section Targets

variable {files : StageFiles} {s : Session}

/-- Opening a file books its redirection. -/
theorem openOne_books (files : StageFiles) (r : Redirection String) (s : Session) :
    Books (openOne files r) s (r.Notes s) := by
  unfold Books Redirection.Notes
  simp only [openOne, runOn_bind, runOn_get]
  cases s.scene.host.disk.openFor r.role r.append (Path.resolve s.scene.cwd r.target) with
  | error fault => exact (Grown.refl _).congr (by simp)
  | ok opened =>
      rcases opened with ⟨disk, handle⟩
      simp only [runOn_bind, runOn_set, runOn_note]
      cases r.role with
      | descriptor digits =>
          exact ((Grown.noting (s.withHost _) _).trans (.noting _ _)).congr (by simp)
      | stdin => exact (Grown.noting (s.withHost _) _).congr (by simp)
      | stdout => exact (Grown.noting (s.withHost _) _).congr (by simp)
      | stderr => exact (Grown.noting (s.withHost _) _).congr (by simp)

/-- What the opening of targets records: the events of each target that is come to. -/
def OpeningNotes (files : StageFiles) (rs : List (Redirection String)) (s : Session)
    (e : Log.Event) : Prop :=
  ∃ front r back files' t, rs = front ++ r :: back ∧
    runOn (openAll files front) s = (.ok (.ok files'), t) ∧ r.Notes t e

/-- Redirections are noted in turn, as far as they are opened. -/
theorem openingNotes_cons_iff {r : Redirection String} {rest : List (Redirection String)}
    {e : Log.Event} :
    OpeningNotes files (r :: rest) s e ↔
      r.Notes s e ∨ ∃ files' t, runOn (openOne files r) s = (.ok (.ok files'), t) ∧
        OpeningNotes files' rest t e := by
  constructor
  · rintro ⟨front, r', back, files', t, hrs, hfront, hnotes⟩
    cases front with
    | nil =>
        cases hrs
        cases hfront
        exact .inl hnotes
    | cons _ front =>
        cases hrs
        rw [openAll, runOn_bind_eq_ok_iff] at hfront
        rcases hfront with ⟨opened, u, hone, hrest⟩
        cases opened with
        | error failure => cases hrest
        | ok opened => exact .inr ⟨opened, u, hone, front, r', back, files', t, rfl, hrest, hnotes⟩
  · rintro (hnotes | ⟨opened, t, hone, front, r', back, files', u, rfl, hfront, hnotes⟩)
    · exact ⟨[], r, rest, files, s, rfl, rfl, hnotes⟩
    · refine ⟨r :: front, r', back, files', u, rfl, ?_, hnotes⟩
      rw [openAll, runOn_bind_of_ok hone]
      exact hfront

/-- Opening files books each redirection that is tried. -/
theorem openAll_books (files : StageFiles) (rs : List (Redirection String)) (s : Session) :
    Books (openAll files rs) s (OpeningNotes files rs s) := by
  induction rs generalizing files s with
  | nil =>
      refine (books_pure _ s).congr fun e => ?_
      simp [OpeningNotes]
  | cons r rest ih =>
      refine ((openOne_books files r s).bind
        (R := fun opened t e => ∃ files', opened = .ok files' ∧
          OpeningNotes files' rest t e) ?_).congr fun e => ?_
      · intro opened t _
        cases opened with
        | error failure => exact (books_pure _ t).congr (by simp)
        | ok files' => exact (ih files' t).congr (by simp)
      · rw [openingNotes_cons_iff]
        refine or_congr Iff.rfl ⟨?_, ?_⟩
        · rintro ⟨_, t, hone, files', rfl, hnotes⟩
          exact ⟨files', t, hone, hnotes⟩
        · rintro ⟨files', t, hone, hnotes⟩
          exact ⟨.ok files', t, hone, files', rfl, hnotes⟩

end Targets

/-! ## Stages -/

namespace Visit

variable (sub : Substitution) (wiring : Wiring) (v : Visit)

/-- While the words of the stage are expanded, the variable is come to; `t` is the session at that
moment. -/
def Asks (name : String) (t : Session) : Prop :=
  ∃ front back text err, v.command.parts = front ++ .var name :: back ∧
    runOn (expandWord sub wiring v.err front) v.before = (.ok (text, err), t)

/-- The words of the stage have become texts and the target `r` is come to; `t` is the session at
that moment. -/
def Opens (r : Redirection String) (t : Session) : Prop :=
  ∃ stage err u front back files, v.Expanded sub wiring stage err u ∧ u.expansionFailed = false ∧
    stage.redirections = front ++ r :: back ∧ runOn (openAll {} front) u = (.ok (.ok files), t)

/-- The events that the stage records, less those of the pipelines in its words. -/
inductive Notes : Log.Event → Prop where
  | value {name : String} {t : Session} (asks : v.Asks sub wiring name t) :
      Notes (.expandedVariable name (t.shown name))
  | target {r : Redirection String} {t : Session} {e : Log.Event} (opens : v.Opens sub wiring r t)
      (noted : r.Notes t e) : Notes e
  | start {stage : Stage String} {files : StageFiles} {err : Sink} {t : Session}
      (ready : v.Ready sub wiring stage files err t) (named : stage.name.isEmpty = false) :
      Notes (.runningCommand (Log.sanitize stage.name) stage.args.length stage.redirections.length)
  | command {stage : Stage String} {files : StageFiles} {err : Sink} {t : Session} {e : Log.Event}
      (ready : v.Ready sub wiring stage files err t) (named : stage.name.isEmpty = false)
      (logged : Logs (runCommand stage files v.input v.out err) (t.starting stage) e) : Notes e

end Visit

section Stages

variable {sub : Substitution} {wiring : Wiring} {v : Visit} {stage : Stage String}
  {files : StageFiles} {err : Sink} {t u : Session} {S : Pipeline → Sink → Session → Log.Event →
    Prop} {e : Log.Event}

/-- The words of a stage record their variables, and what is nested in them. -/
theorem Visit.parts_note_iff :
    Word.Notes sub wiring S v.err v.before v.command.parts e ↔
      (∃ name t, v.Asks sub wiring name t ∧ e = .expandedVariable name (t.shown name)) ∨
        ∃ q err t, v.Enters sub wiring q err t ∧ S q err t e := by
  constructor
  · rintro ⟨front, part, back, text, err, t, hparts, hfront, hnotes⟩
    cases part with
    | text _ => exact hnotes.elim
    | var name => exact .inl ⟨name, t, ⟨front, back, text, err, hparts, hfront⟩, hnotes⟩
    | substitution q => exact .inr ⟨q, err, t, ⟨front, back, text, hparts, hfront⟩, hnotes⟩
  · rintro (⟨name, t, ⟨front, back, text, err, hparts, hfront⟩, he⟩ |
      ⟨q, err, t, ⟨front, back, text, hparts, hfront⟩, he⟩)
    · exact ⟨front, _, back, text, err, t, hparts, hfront, he⟩
    · exact ⟨front, _, back, text, err, t, hparts, hfront, he⟩

/-- Expanding a stage books its variables and what its substitutions book. -/
theorem Visit.expansion_books
    (hsub : ∀ q err t, v.Enters sub wiring q err t → Books (sub q wiring err) t (S q err t)) :
    Books (expandStage sub wiring v.err v.command) v.before
      (Word.Notes sub wiring S v.err v.before v.command.parts) := by
  unfold Books
  rw [expandStage_snd]
  refine expandWord_books fun front q back text err t hparts hfront => ?_
  exact hsub q err t ⟨front, back, text, hparts, hfront⟩

/-- What is recorded for a stage by the time its words are texts and its targets are open. -/
def Visit.CommandNotes (v : Visit) (stage : Stage String) (files : StageFiles) (err : Sink)
    (t : Session) (e : Log.Event) : Prop :=
  stage.name.isEmpty = false ∧
    (e = .runningCommand (Log.sanitize stage.name) stage.args.length stage.redirections.length ∨
      Logs (runCommand stage files v.input v.out err) (t.starting stage) e)

/-- A stage notes the variables it asks for, the files it opens and the command it comes to. -/
theorem Visit.notes_iff :
    v.Notes sub wiring e ↔
      (∃ name t, v.Asks sub wiring name t ∧ e = .expandedVariable name (t.shown name)) ∨
      ∃ stage err t, v.Expanded sub wiring stage err t ∧ t.expansionFailed = false ∧
        (OpeningNotes {} stage.redirections t e ∨
          ∃ files u, runOn (openAll {} stage.redirections) t = (.ok (.ok files), u) ∧
            v.CommandNotes stage files err u e) := by
  constructor
  · intro hnotes
    cases hnotes with
    | value asks => exact .inl ⟨_, _, asks, rfl⟩
    | @target r u _ opens noted =>
        rcases opens with ⟨stage, err, t, front, back, files, hexp, hflag, hrs, hfront⟩
        exact .inr ⟨stage, err, t, hexp, hflag, .inl ⟨front, r, back, files, u, hrs, hfront, noted⟩⟩
    | @start stage files err u ready named =>
        rcases ready with ⟨t, hexp, hflag, hopen⟩
        exact .inr ⟨stage, err, t, hexp, hflag, .inr ⟨files, u, hopen, named, .inl rfl⟩⟩
    | @command stage files err u _ ready named logged =>
        rcases ready with ⟨t, hexp, hflag, hopen⟩
        exact .inr ⟨stage, err, t, hexp, hflag, .inr ⟨files, u, hopen, named, .inr logged⟩⟩
  · rintro (⟨name, t, asks, rfl⟩ |
      ⟨stage, err, t, hexp, hflag, ⟨front, r, back, files, u, hrs, hfront, noted⟩ |
        ⟨files, u, hopen, named, rfl | logged⟩⟩)
    · exact .value asks
    · exact .target ⟨stage, err, t, front, back, files, hexp, hflag, hrs, hfront⟩ noted
    · exact .start ⟨t, hexp, hflag, hopen⟩ named
    · exact .command ⟨t, hexp, hflag, hopen⟩ named logged

/-- A stage records what it does by itself and what is nested in its words. -/
theorem Visit.Runs.books (hrun : v.Runs sub wiring)
    (hsub : ∀ q err t, v.Enters sub wiring q err t → Books (sub q wiring err) t (S q err t))
    (hcommand : ∀ stage files err t, v.Ready sub wiring stage files err t →
      stage.name.isEmpty = false →
      ∃ Q, Books (runCommand stage files v.input v.out err) (t.starting stage) Q) :
    Grown v.before.journal v.after.journal fun e =>
      v.Notes sub wiring e ∨ ∃ q err t, v.Enters sub wiring q err t ∧ S q err t e := by
  -- What a stage books is read off its course: words, then targets, then the command.
  suffices hstage : Books (runStage sub wiring v.command v.input v.out v.err) v.before fun e =>
      v.Notes sub wiring e ∨ ∃ q err t, v.Enters sub wiring q err t ∧ S q err t e by
    unfold Books at hstage
    rwa [hrun] at hstage
  have hwords := Visit.expansion_books hsub
  refine (hwords.bind (R := fun x t e => t.expansionFailed = false ∧
    (OpeningNotes {} x.1.redirections t e ∨
    ∃ files u, runOn (openAll {} x.1.redirections) t = (.ok (.ok files), u) ∧
      v.CommandNotes x.1 files x.2 u e))
    ?_).congr fun e => ?_
  · rintro ⟨stage, err⟩ t hexp
    have hget : Books (get : Exec Session) t fun _ => False := .refl _
    refine (hget.bind_of_ok (runOn_get t) ?_).congr fun e => iff_of_eq (false_or _)
    dsimp only
    -- A stage whose words could not be expanded opens nothing and runs nothing.
    cases hflag : t.expansionFailed with
    | true => exact (Grown.refl _).congr (by simp)
    | false =>
        refine ((openAll_books {} stage.redirections t).bind
          (R := fun opened u e => ∃ files, opened = .ok files ∧
            v.CommandNotes stage files err u e) ?_).congr ?_
        · rintro (failure | files) u hopen
          · exact (Keeps.bind (report_keeps_journal _ _) fun _ => .pure _).books.congr (by simp)
          · have ready : v.Ready sub wiring stage files err u := ⟨t, hexp, hflag, hopen⟩
            dsimp only
            cases hname : stage.name.isEmpty with
            | true => exact (books_pure _ u).congr (by simp [Visit.CommandNotes, hname])
            | false =>
                rcases hcommand stage files err u ready hname with ⟨Q, hQ⟩
                refine ((books_note _ u).bind_of_ok (runOn_note _ u) hQ).congr fun e => ?_
                simp [Visit.CommandNotes, hname, ← hQ.logs_iff]
        · intro e
          simp only [true_and]
          refine or_congr Iff.rfl ⟨?_, ?_⟩
          · rintro ⟨_, u, hopen, files, rfl, hnotes⟩
            exact ⟨files, u, hopen, hnotes⟩
          · rintro ⟨files, u, hopen, hnotes⟩
            exact ⟨_, u, hopen, files, rfl, hnotes⟩
  · rw [Visit.parts_note_iff, Visit.notes_iff, or_right_comm]
    refine or_congr_left (or_congr_right ⟨?_, ?_⟩)
    · rintro ⟨⟨stage, err⟩, t, h⟩
      exact ⟨stage, err, t, h⟩
    · rintro ⟨stage, err, t, h⟩
      exact ⟨⟨stage, err⟩, t, h⟩

end Stages

/-! ## Pipelines -/

/-- What a stage number `i` of `total` adds, if `W` is what it records while it runs. -/
def Visit.Adds (W : Log.Event → Prop) (total i : Nat) (v : Visit) (e : Log.Event) : Prop :=
  e = .stageStarting i total ∨ W e ∨ ∃ ended, v.result = .ok ended ∧
    e = .stageFinished i ended.outcome

/-- What the stages of a list add, counted from number `i` on. -/
def VisitsAdd (W : Visit → Log.Event → Prop) (total i : Nat) (vs : List Visit) (e : Log.Event) :
    Prop :=
  ∃ (k : Nat) (v : Visit), vs[k]? = some v ∧ v.Adds (W v) total (i + k) e

section Pipelines

variable {sub : Substitution} {wiring : Wiring} {total i : Nat} {input : Input} {err : Sink}
  {p : Pipeline} {s : Session} {W : Visit → Log.Event →
    Prop} {v : Visit} {vs : List Visit} {e : Log.Event}

/-- What visits add is what the first adds or the others do. -/
theorem visitsAdd_cons_iff :
    VisitsAdd W total i (v :: vs) e ↔ v.Adds (W v) total i e ∨ VisitsAdd W total (i + 1) vs e := by
  constructor
  · rintro ⟨k, w, hk, hadds⟩
    cases k with
    | zero =>
        cases hk
        exact .inl hadds
    | succ k => exact .inr ⟨k, w, hk, by rwa [Nat.add_right_comm]⟩
  · rintro (hadds | ⟨k, w, hk, hadds⟩)
    · exact ⟨0, v, rfl, hadds⟩
    · exact ⟨k + 1, w, hk, by rwa [Nat.add_right_comm] at hadds⟩

theorem visitsAdd_nil_iff : VisitsAdd W total i [] e ↔ False := by
  simp [VisitsAdd]

/-- The last stage of a pipeline records how it finishes, unless it ends the line. -/
theorem Visit.conclusion_grown (h : Grown v.before.journal v.after.journal (W v)) :
    Grown v.before.journal (v.conclusion i).2.journal fun e =>
      W v e ∨ ∃ ended, v.result = .ok ended ∧ e = .stageFinished i ended.outcome := by
  rw [Visit.conclusion]
  cases hr : v.result with
  | error error => exact h.congr (by simp)
  | ok ended => exact (h.trans (.noting _ (.stageFinished i ended.outcome))).congr (by simp)

/-- Stages record one after the other: that they start, what they do, and how they finish. -/
theorem runStages_books
    (h : ∀ v ∈ visitsFrom sub wiring total i input err p s,
    Grown v.before.journal v.after.journal (W v)) :
    Books (runStages sub wiring total i input err p) s
      (VisitsAdd W total i (visitsFrom sub wiring total i input err p s)) := by
  induction p generalizing i input err s with
  | nil => exact (books_pure _ s).congr fun e => visitsAdd_nil_iff.symm
  | cons command rest ih =>
      rcases @visitsFrom_cons_cases sub wiring total i input err command rest s with ⟨v, hv, hcases⟩
      have hstart : Grown s.journal v.before.journal (· = .stageStarting i total) := by
        rw [hv]
        exact .noting _ _
      -- If there is no stage behind it, then it decides how the pipeline ends.
      have hlast : Grown v.before.journal v.after.journal (W v) →
          Grown s.journal (v.conclusion i).2.journal (VisitsAdd W total i [v]) := by
        intro hgrown
        refine (hstart.trans (Visit.conclusion_grown hgrown)).congr fun e => ?_
        rw [visitsAdd_cons_iff, visitsAdd_nil_iff, or_false]
        rfl
      unfold Books
      rw [runOn_runStages_cons hv]
      rcases hcases with ⟨⟨outcome, out', err'⟩, ⟨hr, hcont⟩, hvs⟩ | ⟨hstop, hvs⟩ <;>
        rw [hvs] at h ⊢
      · have hgrown := h v List.mem_cons_self
        cases outcome with
        | exited code => cases hcont
        | aborted code => cases hcont
        | finished code =>
            simp only [hr]
            cases rest with
            | nil => exact hlast hgrown
            | cons command' rest =>
                have hrest := ih fun w hw => h w (List.mem_cons_of_mem v hw)
                have hnext := hgrown.trans (.noting _ (.stageFinished i (.finished code)))
                refine ((hstart.trans hnext).trans hrest).congr fun e => ?_
                rw [visitsAdd_cons_iff, Visit.Adds]
                simp [hr]
      · have hgrown := h v List.mem_cons_self
        rcases hr : v.result with error | ⟨code | code | code, out', err'⟩
        · exact hlast hgrown
        · exact (hstop _ ⟨hr, trivial⟩).elim
        · exact hlast hgrown
        · exact hlast hgrown

/-- A run books what each of its stages adds. -/
theorem runWith_books
    (h : ∀ v ∈ visits sub wiring p s, Grown v.before.journal v.after.journal (W v)) :
    Books (runWith sub p wiring) s (VisitsAdd W p.length 0 (visits sub wiring p s)) :=
  (runStages_books h).map

end Pipelines

/-! ## Commands -/

/-- What is recorded about the input of a program if handing it over broke off. -/
def Feed.unreadEvents (unread : Option Int) : Feed → List Log.Event
  | .bytes _ => unread.toList.map fun code => .feedEndedEarly (.os code)
  | _ => []

/-- What is recorded about a program: that it is to be started, and then that it could not be, or
how handing over its input broke off and that it was stopped or how it ended. -/
def Session.programEvents (s : Session) (name : String) (args : List String) (input : Feed)
    (out err : Sink) :
    List Log.Event :=
  .spawning name args.length ::
    match s.start name args input out err with
    | .error fault => [.spawnFailed name fault.toFault]
    | .ok left =>
        input.unreadEvents left.unread ++
          match left.ending, s.limits.timeout with
          | .overtime, some limit => [.killedAfterTimeout name limit]
          | ending, _ => [.exited name ending.status]

/-- Whatever a builtin of the session does, it records events and erases none. -/
def Session.Faithful (s : Session) : Prop :=
  ∀ name b, s.table.lookup name = some b → ∀ args stdin (d : Desk),
    ∃ Q, Grown d.scene.journal (runOn (b args stdin) d).2.scene.journal Q

section Commands

variable {s t : Session} {stage : Stage String} {files : StageFiles} {input : Input}
  {out err : Sink}

/-- Faithfulness is a matter of the frame. -/
theorem Session.Faithful.of_frame_eq (hs : s.Faithful) (h : t.frame = s.frame) : t.Faithful := by
  unfold Session.Faithful
  rw [Session.table_eq_of_frame_eq h]
  exact hs

/-- Unread input adds its own event and nothing else. -/
theorem noteUnread_journal (input : Feed) (unread : Option Int) (s : Session) :
    ∃ t, runOn (noteUnread input unread) s = (.ok (), t) ∧
      t.journal = s.journal ++ input.unreadEvents unread := by
  cases input with
  | bytes bs =>
      cases unread with
      | none => exact ⟨_, rfl, (List.append_nil _).symm⟩
      | some code => exact ⟨_, rfl, s.scene.journal_noting _⟩
  | inherited => exact ⟨_, rfl, (List.append_nil _).symm⟩
  | file handle => exact ⟨_, rfl, (List.append_nil _).symm⟩

/-- A program leaves its events in the journal, and the report about it none. -/
theorem runProgram_journal (name : String) (args : List String) (input : Feed) (out err : Sink)
    (s : Session) :
    (runOn (runProgram name args input out err) s).2.journal =
      s.journal ++ s.programEvents name args input out err := by
  have hnoted : ∀ (u : Session) (event : Log.Event), (u.noting event).journal =
    u.journal ++ [event] :=
    fun u event => u.scene.journal_noting event
  have hlaunched : (s.noting (.spawning name args.length)).launching.journal =
      s.journal ++ [.spawning name args.length] := hnoted s _
  rw [runProgram, runOn_bind_of_ok (runOn_get s), runOn_bind_of_ok (runOn_note _ s),
    runOn_bind_of_ok (runOn_modify _ _), Session.programEvents, List.append_cons, ← hlaunched]
  cases s.start name args input out err with
  | error fault =>
      dsimp only
      rw [runOn_bind_of_ok (runOn_note _ _), ← hnoted]
      exact Keeps.bind (report_keeps_journal _ _) (fun _ => .pure _) _
  | ok left =>
      rcases noteUnread_journal input left.unread
        ((s.noting (.spawning name args.length)).launching.withHost (s.scene.host.after left)) with
        ⟨u, hunread, hjournal⟩
      -- What the program did to the host is not in the journal.
      have hu : u.journal = (s.noting (.spawning name args.length)).launching.journal ++
          input.unreadEvents left.unread := hjournal
      dsimp only
      rw [runOn_bind_of_ok (runOn_modify _ _), runOn_bind_of_ok hunread, ← List.append_assoc, ← hu]
      cases left.ending with
      | code n => exact hnoted u _
      | signal n => exact hnoted u _
      | overtime =>
          cases s.limits.timeout with
          | none => exact hnoted u _
          | some limit =>
              dsimp only
              rw [runOn_bind_of_ok (runOn_note _ _), ← hnoted]
              exact Keeps.bind (report_keeps_journal _ _) (fun _ => .pure _) _

/-- A builtin adds to the journal what it notes at its desk. -/
theorem runBuiltin_journal (b : Builtin) (name : String) (args : List String) (stdin : Option Bytes)
    (out err : Sink) (s : Session) :
    (runOn (runBuiltin b name args stdin out err) s).2.journal =
      (runOn (b args stdin) (s.desk out err)).2.scene.journal := by
  rw [runOn_runBuiltin, Session.desk]
  rcases runOn (b args stdin) ⟨s.scene, out.handedOut, err.handedOut⟩ with ⟨error | (n | n), desk⟩
  · exact Keeps.bind (report_keeps_journal _ _) (fun _ => .pure _) (s.withScene desk.scene)
  · rfl
  · rfl

/-- While a program runs, what is recorded is recorded about it. -/
theorem runCommand_books_of_absent (hb : s.table.lookup stage.name = none) :
    Books (runCommand stage files input out err) s
      (· ∈ s.programEvents stage.name stage.args (programInput files.stdin input) (files.outOr out)
        (files.errOr err)) := by
  unfold Books
  rw [runOn_runCommand_of_absent hb, runOn_map, runProgram_journal]
  exact ⟨_, rfl, fun e => Iff.rfl⟩

/-- While a builtin runs, what is recorded is recorded at its desk. -/
theorem runCommand_books_of_builtin {b : Builtin} {stdin : Option Bytes} {Q : Log.Event → Prop}
    (hb : s.table.lookup stage.name = some b)
    (hin : runOn (builtinInput files.stdin input) s = (.ok stdin, s))
    (h : Grown s.journal
      (runOn (b stage.args stdin) (s.desk (files.outOr out) (files.errOr err))).2.scene.journal Q) :
    Books (runCommand stage files input out err) s Q := by
  unfold Books
  rw [runOn_runCommand_of_builtin hb hin, runOn_map, runBuiltin_journal]
  exact h

/-- A builtin whose input cannot be read books nothing. -/
theorem runCommand_books_of_unreadable {b : Builtin} {error : Error}
    (hb : s.table.lookup stage.name = some b)
    (hin : runOn (builtinInput files.stdin input) s = (.error error, s)) :
    Books (runCommand stage files input out err) s fun _ => False := by
  unfold Books
  rw [runOn_runCommand_of_unreadable hb hin]
  exact .refl _

/-- Every command books something definite. -/
theorem runCommand_books (hs : s.Faithful) (stage : Stage String) (files : StageFiles)
    (input : Input) (out err : Sink) : ∃ Q, Books (runCommand stage files input out err) s Q := by
  cases hb : s.table.lookup stage.name with
  | none => exact ⟨_, runCommand_books_of_absent hb⟩
  | some b =>
      rcases builtinInput_cases files.stdin input s with ⟨stdin, hin⟩ | ⟨handle, fault, -, -, hin⟩
      · rcases hs stage.name b hb stage.args stdin (s.desk (files.outOr out) (files.errOr err))
          with ⟨Q, hQ⟩
        exact ⟨Q, runCommand_books_of_builtin hb hin hQ⟩
      · exact ⟨_, runCommand_books_of_unreadable hb hin⟩

end Commands

/-! ## Runs -/

/-- The events of a pipeline that is run with so many levels of substitutions: its stages start and
finish, and in between they record what they do by themselves and what is nested in their words. -/
inductive RunLog : Nat → Pipeline → Wiring → Session → Log.Event → Prop where
  | starts {levels k : Nat} {p : Pipeline} {wiring : Wiring} {s : Session} {v : Visit}
      (visited : (visits (substitutionWithin levels) wiring p s)[k]? = some v) :
      RunLog levels p wiring s (.stageStarting k p.length)
  | finishes {levels k : Nat} {p : Pipeline} {wiring : Wiring} {s : Session} {v : Visit}
    {ended : Ended}
      (visited : (visits (substitutionWithin levels) wiring p s)[k]? = some v) (result : v.result =
        .ok ended) :
      RunLog levels p wiring s (.stageFinished k ended.outcome)
  | here {levels : Nat} {p : Pipeline} {wiring : Wiring} {s : Session} {v : Visit} {e : Log.Event}
      (visited : v ∈ visits (substitutionWithin levels) wiring p s)
      (noted : v.Notes (substitutionWithin levels) wiring e) : RunLog levels p wiring s e
  | inside {levels : Nat} {p q : Pipeline} {wiring : Wiring} {s t : Session} {err : Sink}
    {v : Visit}
      {e : Log.Event} (visited : v ∈ visits (substitutionWithin (levels + 1)) wiring p s)
      (entered : v.Enters (substitutionWithin (levels + 1)) wiring q err t)
      (within : RunLog levels q wiring.nested t.enter e) : RunLog (levels + 1) p wiring s e

/-- What is nested in the words of a stage records nothing without a level left, and else what its
pipeline does. -/
def SubstitutionLog (wiring : Wiring) : Nat → Pipeline → Sink → Session → Log.Event → Prop
  | 0, _, _, _, _ => False
  | levels + 1, q, _, t, e => RunLog levels q wiring.nested t.enter e

section Runs

variable {wiring w : Wiring} {levels rest : Nat} {p q : Pipeline} {err : Sink} {s t : Session}
  {v : Visit} {e : Log.Event}

/-- What a run logs is what its stages note and what the substitutions they enter log. -/
theorem runLog_iff :
    RunLog levels p wiring s e ↔
      VisitsAdd (fun v e => v.Notes (substitutionWithin levels) wiring e ∨
        ∃ q err t, v.Enters (substitutionWithin levels) wiring q err t ∧
          SubstitutionLog wiring levels q err t e)
        p.length 0 (visits (substitutionWithin levels) wiring p s) e := by
  constructor
  · intro h
    cases h with
    | starts visited => exact ⟨_, _, visited, .inl (by rw [Nat.zero_add])⟩
    | finishes visited result =>
        exact ⟨_, _, visited, .inr (.inr ⟨_, result, by rw [Nat.zero_add]⟩)⟩
    | here visited noted =>
        rcases List.getElem?_of_mem visited with ⟨k, hk⟩
        exact ⟨k, _, hk, .inr (.inl (.inl noted))⟩
    | inside visited entered within =>
        rcases List.getElem?_of_mem visited with ⟨k, hk⟩
        exact ⟨k, _, hk, .inr (.inl (.inr ⟨_, _, _, entered, within⟩))⟩
  · rintro ⟨k, v, hk, rfl | (noted | ⟨q, err, t, entered, within⟩) | ⟨ended, hr, rfl⟩⟩
    · rw [Nat.zero_add]
      exact .starts hk
    · exact .here (List.mem_of_getElem? hk) noted
    · cases levels with
      | zero => exact within.elim
      | succ levels => exact .inside (List.mem_of_getElem? hk) entered within
    · rw [Nat.zero_add]
      exact .finishes hk hr

/-- A substitution records what its pipeline does, one level deeper. -/
theorem nest_books {run : Pipeline → Wiring → Exec Result} {Q : Log.Event → Prop}
    (h : Books (run q wiring.nested) t.enter Q) : Books (nest run q wiring err) t Q := by
  unfold Books at h ⊢
  rw [runOn_nest]
  rcases hr : runOn (run q wiring.nested) t.enter with ⟨error | result, u⟩ <;> rw [hr] at h
  · exact h
  · have hpass : Keeps Session.journal (do
        let err ← passOn err result.stderr
        return (dropLineEnds result.stdout, err)) := .bind (passOn_keeps_journal _ _) fun _ =>
          .pure _
    dsimp only
    rw [hpass u.leave]
    exact h

/-- A pipeline records the events of its stages, given what is nested in their words. -/
theorem runWithin_books_of (hs : s.Faithful)
    (hsub : ∀ v ∈ visits (substitutionWithin levels) wiring p s, ∀ q err t,
      v.Enters (substitutionWithin levels) wiring q err t →
      Books (substitutionWithin levels q wiring err) t (SubstitutionLog wiring levels q err t)) :
    Books (runWithin levels p wiring) s (RunLog levels p wiring s) := by
  have hkeeps := substitutionWithin_keepsFrame levels
  rw [runWithin_eq_runWith]
  refine (runWith_books fun v hv => (visitsFrom_runs hv).books (hsub v hv) ?_).congr fun e =>
    runLog_iff.symm
  intro stage files err t ready _
  have hframe : (t.starting stage).frame = s.frame :=
    (ready.frame_eq hkeeps).trans (visitsFrom_frame hkeeps hv)
  exact runCommand_books (hs.of_frame_eq hframe) _ _ _ _ _

/-- A pipeline records the events of its stages, at whatever level, and no others. -/
theorem runWithin_books (hs : s.Faithful) :
    Books (runWithin levels p wiring) s (RunLog levels p wiring s) := by
  induction levels generalizing p wiring s with
  | zero =>
      refine runWithin_books_of hs ?_
      intro v _ q err t _
      exact (refuse_keeps_journal q wiring err).books
  | succ levels ih =>
      refine runWithin_books_of hs ?_
      intro v hv q err t hq
      have hkeeps := substitutionWithin_keepsFrame (levels + 1)
      have hframe : t.frame = s.frame := (hq.frame_eq hkeeps).trans (visitsFrom_frame hkeeps hv)
      have ht : t.Faithful := hs.of_frame_eq hframe
      exact nest_books (ih ht)

/-- The event tells only that a stage starts or finishes. -/
def Log.Event.Counts : Log.Event → Prop
  | .stageStarting .. | .stageFinished .. => True
  | _ => False

/-- An event that does more than that is the event of a stage, at some level. -/
theorem RunLog.occurs (h : RunLog levels p wiring s e) (he : ¬ e.Counts) :
    ∃ rest w v, Occurs levels p wiring s rest w v ∧ v.Notes (substitutionWithin rest) w e := by
  induction h with
  | starts _ => exact (he trivial).elim
  | finishes _ _ => exact (he trivial).elim
  | here visited noted => exact ⟨_, _, _, .here visited, noted⟩
  | inside visited entered _ ih =>
      rcases ih he with ⟨rest, w, v', hv', noted⟩
      exact ⟨rest, w, v', .inside visited entered hv', noted⟩

/-- What a stage notes at any depth is logged by the run. -/
theorem Occurs.runLog (h : Occurs levels p wiring s rest w v)
    (noted : v.Notes (substitutionWithin rest) w e) :
    RunLog levels p wiring s e := by
  induction h with
  | here visited => exact .here visited noted
  | inside visited entered _ ih => exact .inside visited entered (ih noted)

end Runs

/-! ## Lines -/

/-- A line records that it is run, how it is read, and what its pipeline does if it can be read. -/
theorem run_books {s : Session} (hs : s.Faithful) (line : String) (wiring : Wiring) :
    Books (Session.run line wiring) s fun e =>
      e = .executingLine (s.policy.line line) ∨ (∃ step ∈ Pipeline.trace line, e = .reading step) ∨
        ∃ p, Pipeline.parse line = .ok p ∧ RunLog s.room p wiring (s.recording line) e := by
  have hrecord : Grown s.journal (s.recording line).journal fun e =>
      e = .executingLine (s.policy.line line) ∨ ∃ step ∈ Pipeline.trace line,
        e = .reading step := by
    refine ⟨_, s.scene.journal_notingAll _, fun e => ?_⟩
    simp [eq_comm]
  unfold Books
  cases hparse : Pipeline.parse line with
  | error error =>
      rw [runOn_run_of_malformed hparse]
      exact hrecord.congr (by simp)
  | ok p =>
      rw [runOn_run_eq_runWithin hparse]
      have hrun : Books (runWithin s.room p wiring) (s.recording line) _ := runWithin_books hs
      refine (hrecord.trans hrun).congr fun e => ?_
      simp [or_assoc]

end LineShell
