import LineShell.Proofs.Coupling

/-!
# Discretion — what nobody looks at

No command can read the journal of a session, or what its error sink already holds. So two runs of
the same pipeline at different times, the second with more in its error sink, go alike, as long as
programs do the same at both times.

* `Session.atTime`, `Session.unlogged` — a session with another journal, and without one;
* `Session.Alongside` — the same session at two times, from which on programs do the same;
* `Builtin.Discreet` — a builtin that does not look at the journal, as every builtin of a session
  should be;
* `Sink.More` — a sink that already holds more;
* `Trailing` — the correspondence of such runs, and `trailing_likeness`;
* `runCommand_trailing`, `Visit.Runs.trailing` — commands and stages;
* `runWithin_discreet` — pipelines.
-/

namespace LineShell

/-! ## Without the journal -/

def Scene.withRecords (s : Scene) (records : List Log.Record) : Scene :=
  { s with records }

def Scene.withOutlets (s : Scene) (outlets : Outlet × Outlet) : Scene :=
  { s with host := { s.host with stdout := outlets.1, stderr := outlets.2 } }

/-- Without its journal, a scene is what is seen of it and its outlets. -/
theorem Scene.withRecords_eq_of {x y : Scene} (hseen : x.seen = y.seen)
    (houtlets : x.outlets = y.outlets) :
    x.withRecords [] = y.withRecords [] := by
  calc x.withRecords [] = x.seen.withOutlets x.outlets := rfl
    _ = y.seen.withOutlets y.outlets := by rw [hseen, houtlets]
    _ = y.withRecords [] := rfl

namespace Session

/-- The same session at another time: with another journal, and after another number of launches. -/
def atTime (s : Session) (records : List Log.Record) (launches : Nat) : Session :=
  { s with scene := s.scene.withRecords records, launches }

/-- A session without its journal and the number of its launches. -/
def unlogged (s : Session) : Session :=
  s.atTime [] 0

variable {s t : Session}

/-- Sessions that agree apart from the log differ only in records and launches. -/
theorem unlogged_eq_iff :
    s.unlogged = t.unlogged ↔ ∃ records launches, t = s.atTime records launches := by
  constructor
  · intro h
    have hback := congrArg (fun u : Session => u.atTime t.scene.records t.launches) h
    exact ⟨t.scene.records, t.launches, hback.symm⟩
  · rintro ⟨records, launches, rfl⟩
    rfl

theorem seen_eq_of_unlogged_eq (h : s.unlogged = t.unlogged) : s.seen = t.seen := by
  have hseen := congrArg Session.seen h
  exact hseen

/-- What is seen and the outlets are all that matters apart from the log. -/
theorem unlogged_eq_of (hseen : s.seen = t.seen) (houtlets : s.scene.outlets = t.scene.outlets) :
    s.unlogged = t.unlogged := by
  have hscene := Scene.withRecords_eq_of (scene_seen_eq hseen) houtlets
  have hboth : s.ledger.withScene (s.scene.withRecords []) =
    t.ledger.withScene (t.scene.withRecords []) := by
    rw [ledger_eq_of_seen_eq hseen, hscene]
  exact hboth

/-- The same session at two times, from which on programs do the same. -/
structure Alongside (s t : Session) : Prop where
  same : s.unlogged = t.unlogged
  repeats : s.programs.Repeats s.launches t.launches

/-- What is done to both sessions, but not to their programs and launches, leaves them alongside. -/
theorem Alongside.of_kept {s' t' : Session} (h : s.Alongside t) (hsame : s'.unlogged = t'.unlogged)
    (hprograms : s'.programs = s.programs) (hs : s'.launches = s.launches)
    (ht : t'.launches = t.launches) :
    s'.Alongside t' := by
  refine ⟨hsame, ?_⟩
  rw [hprograms, hs, ht]
  exact h.repeats

end Session

/-! ## Builtins -/

def Desk.unlogged (d : Desk) : Desk :=
  { d with scene := d.scene.withRecords [] }

/-- The builtin does not look at the journal: at desks that differ in the journal alone it answers
the same, and it leaves desks that differ in the journal alone. -/
def Builtin.Discreet (b : Builtin) : Prop :=
  ∀ args stdin d d', d.unlogged = d'.unlogged →
    (runOn (b args stdin) d).1 = (runOn (b args stdin) d').1 ∧
      (runOn (b args stdin) d).2.unlogged = (runOn (b args stdin) d').2.unlogged

def SameDesk (d d' : Desk) : Prop :=
  d.unlogged = d'.unlogged

/-- The same desk at another time differs only in its records. -/
theorem sameDesk_iff {d d' : Desk} :
    SameDesk d d' ↔ ∃ records, d' = { d with scene := d.scene.withRecords records } := by
  constructor
  · intro h
    have hback := congrArg (fun e : Desk =>
      { e with scene := e.scene.withRecords d'.scene.records }) h
    exact ⟨d'.scene.records, hback.symm⟩
  · rintro ⟨records, rfl⟩
    rfl

/-- Actions cannot tell the same desk at another time. -/
theorem coupling_sameDesk : Coupling SameDesk where
  seen h := by
    have hseen := congrArg (fun d : Desk => d.scene.seen) h
    exact hseen
  terminal h := by
    rcases sameDesk_iff.1 h with ⟨records, rfl⟩
    rfl
  stable h hseen hx hy := by
    rcases sameDesk_iff.1 h with ⟨records, rfl⟩
    -- The rest of a desk does not depend on what was recorded.
    have hscene := Scene.withRecords_eq_of hseen (hx.trans hy.symm)
    rw [SameDesk, Desk.unlogged, Desk.unlogged]
    dsimp only
    rw [hscene]
  print bs h := by
    rcases sameDesk_iff.1 h with ⟨records, rfl⟩
    rw [Action.print, runOn_bind_of_ok (runOn_get _), runOn_bind_of_ok (runOn_get _)]
    dsimp only [Scene.withRecords]
    rcases Sink.write _ bs _ with ⟨out, host, fault | done⟩
    · exact .error rfl
    · exact .ok rfl
  report text h := by
    rcases sameDesk_iff.1 h with ⟨records, rfl⟩
    rw [Action.report, runOn_bind_of_ok (runOn_get _), runOn_bind_of_ok (runOn_get _)]
    dsimp only [Scene.withRecords]
    rcases Sink.write _ _ _ with ⟨out, host, fault | done⟩
    · exact .error rfl
    · exact .ok rfl

/-- Discretion is coupling. -/
theorem Builtin.Discreet.coupled {b : Builtin} (h : b.Discreet) (args : List String)
    (stdin : Option Bytes) :
    Coupled SameDesk (b args stdin) (b args stdin) := by
  intro d d' hd
  rcases h args stdin d d' hd with ⟨hanswer, hdesk⟩
  generalize runOn (b args stdin) d = r at hanswer hdesk
  generalize runOn (b args stdin) d' = r' at hanswer hdesk
  rcases r with ⟨e | answer, left⟩ <;> rcases r' with ⟨_, right⟩ <;> cases hanswer
  · exact .error hdesk
  · exact .ok ⟨rfl, hdesk⟩

/-- The builtins that every session starts with are discreet. -/
theorem standard_discreet {name : String} {b : Builtin}
    (h : Builtin.standard.lookup name = some b) :
    b.Discreet := by
  intro args stdin d d' hd
  have hcoupled := standard_coupled coupling_sameDesk h args stdin stdin d d' hd
  generalize runOn (b args stdin) d = r at hcoupled ⊢
  generalize runOn (b args stdin) d' = r' at hcoupled ⊢
  cases hcoupled with
  | ok values => exact ⟨congrArg Except.ok values.1, values.2⟩
  | error states => exact ⟨rfl, states⟩

def Session.Discreet (s : Session) : Prop :=
  ∀ name b, s.table.lookup name = some b → b.Discreet

/-- Discretion is a matter of the frame. -/
theorem Session.Discreet.of_frame_eq {s t : Session} (h : s.Discreet) (hframe : t.frame = s.frame) :
    t.Discreet := by
  rw [Session.Discreet, Session.table_eq_of_frame_eq hframe]
  exact h

/-! ## Sinks that hold more -/

/-- The second sink is memory that holds `pre` in front of what the first one holds. -/
def Sink.More (pre : Bytes) (a b : Sink) : Prop :=
  ∃ bytes, a = .buffer bytes ∧ b = .buffer (pre ++ bytes)

/-- A correspondence of sinks that no command can tell apart. -/
structure Sink.Indistinct (S : Sink → Sink → Prop) : Prop where
  handedOut {a b : Sink} : S a b → a.handedOut = b.handedOut
  receive {a b : Sink} (written : Sink) : S a b → S (a.receive written) (b.receive written)
  after {a b : Sink} (written : Written) : S a b → S (a.after written) (b.after written)
  afterStop {a b after after' : Sink} : S a b → S after after' →
    S (a.afterStop after) (b.afterStop after')
  write {a b : Sink} (bs : Bytes) (h : Host) : S a b →
    (a.write bs h).2 = (b.write bs h).2 ∧ S (a.write bs h).1 (b.write bs h).1

theorem Sink.indistinct_eq : Sink.Indistinct Eq where
  handedOut h := by rw [h]
  receive _ h := by rw [h]
  after _ h := by rw [h]
  afterStop h h' := by rw [h, h']
  write _ _ h := by rw [h]; exact ⟨rfl, rfl⟩

/-- A buffer that holds more in front takes the same writes. -/
theorem Sink.indistinct_more (pre : Bytes) : Sink.Indistinct (Sink.More pre) where
  handedOut := by
    rintro _ _ ⟨bytes, rfl, rfl⟩
    rfl
  receive := by
    rintro _ _ written ⟨bytes, rfl, rfl⟩
    exact ⟨_, rfl, congrArg Sink.buffer (List.append_assoc _ _ _)⟩
  after := by
    rintro _ _ written ⟨bytes, rfl, rfl⟩
    exact ⟨_, rfl, congrArg Sink.buffer (List.append_assoc _ _ _)⟩
  afterStop := by
    rintro _ _ _ _ ⟨bytes, rfl, rfl⟩ -
    exact ⟨bytes, rfl, rfl⟩
  write := by
    rintro _ _ bs h ⟨bytes, rfl, rfl⟩
    exact ⟨rfl, _, rfl, congrArg Sink.buffer (List.append_assoc _ _ _)⟩

/-- Two ends of a stage that differ in the error sink alone. -/
def Ended.SameBut (S : Sink → Sink → Prop) (e e' : Ended) (s t : Session) : Prop :=
  e.outcome = e'.outcome ∧ e.out = e'.out ∧ S e.err e'.err ∧ s.Alongside t

section Commands

variable {S : Sink → Sink → Prop} (hS : Sink.Indistinct S) {a b out : Sink} {s t : Session}
include hS

/-- A write to sinks that cannot be told apart keeps sessions alongside. -/
theorem write_indistinct (bs : Bytes) (hab : S a b) (h : s.Alongside t) :
    Joint (fun a b s t => S a b ∧ s.Alongside t) Session.Alongside (runOn (Exec.write a bs) s)
      (runOn (Exec.write b bs) t) := by
  rcases Session.unlogged_eq_iff.1 h.same with ⟨records, launches, rfl⟩
  have hwrite := hS.write bs s.scene.host hab
  rw [runOn_write, runOn_write, show (s.atTime records launches).scene.host = s.scene.host from rfl]
  generalize a.write bs s.scene.host = x at hwrite ⊢
  generalize b.write bs s.scene.host = y at hwrite ⊢
  rcases x with ⟨a', host, fault | done⟩ <;> rcases y with ⟨b', _, _⟩ <;>
    rcases hwrite with ⟨⟨⟩, hsinks⟩
  · exact .error ⟨rfl, h.repeats⟩
  · exact .ok ⟨hsinks, rfl, h.repeats⟩

/-- A report to sinks that cannot be told apart keeps sessions alongside. -/
theorem report_indistinct (text : String) (hab : S a b) (h : s.Alongside t) :
    Joint (fun a b s t => S a b ∧ s.Alongside t) Session.Alongside (runOn (Exec.report a text) s)
      (runOn (Exec.report b text) t) :=
  write_indistinct hS _ hab h

/-- A builtin with corresponding sinks does the same in sessions that go alongside. -/
theorem runBuiltin_indistinct {builtin : Builtin} {args : List String} {stdin stdin' : Option Bytes}
    (hb : Coupled SameDesk (builtin args stdin) (builtin args stdin')) (name : String) (hab : S a b)
    (h : s.Alongside t) :
    Joint (Ended.SameBut S) Session.Alongside (runOn (runBuiltin builtin name args stdin out a) s)
      (runOn (runBuiltin builtin name args stdin' out b) t) := by
  rcases Session.unlogged_eq_iff.1 h.same with ⟨records, launches, rfl⟩
  have hdesk : SameDesk ⟨s.scene, out.handedOut, a.handedOut⟩
      ⟨(s.atTime records launches).scene, out.handedOut, b.handedOut⟩ := by
    rw [hS.handedOut hab]
    rfl
  have hboth := hb _ _ hdesk
  rw [runOn_runBuiltin, runOn_runBuiltin]
  generalize runOn (builtin args stdin) _ = r at hboth ⊢
  generalize runOn (builtin args stdin') _ = r' at hboth ⊢
  cases hboth with
  | @error e d d' states =>
      rcases sameDesk_iff.1 states with ⟨records', rfl⟩
      refine (report_indistinct hS _ (hS.receive d.err hab) ?_).bind fun _ _ _ _ _ hsinks => ?_
      · exact ⟨rfl, h.repeats⟩
      · exact .ok ⟨rfl, rfl, hsinks⟩
  | @ok answer answer' d d' values =>
      rcases values with ⟨rfl, hdesks⟩
      rcases sameDesk_iff.1 hdesks with ⟨records', rfl⟩
      cases answer with
      | code n => exact .ok ⟨rfl, rfl, hS.receive d.err hab, rfl, h.repeats⟩
      | exit n => exact .ok ⟨rfl, rfl, hS.receive d.err hab, rfl, h.repeats⟩

omit hS in
/-- An event that is recorded in both sessions leaves them alongside. -/
theorem Session.Alongside.noting (h : s.Alongside t) (event event' : Log.Event) :
    (s.noting event).Alongside (t.noting event') := by
  have hsame : (s.noting event).unlogged = (t.noting event').unlogged := h.same
  exact h.of_kept hsame rfl rfl rfl

omit hS in
/-- So does a launch, since programs do the same from there on. -/
theorem Session.Alongside.launching (h : s.Alongside t) : s.launching.Alongside t.launching := by
  have hsame : s.launching.unlogged = t.launching.unlogged := h.same
  exact ⟨hsame, h.repeats.step.2⟩

omit hS in
/-- Noting unread input keeps sessions alongside. -/
theorem noteUnread_alongside (input : Feed) (unread : Option Int) (h : s.Alongside t) :
    Joint (fun _ _ => Session.Alongside) Session.Alongside (runOn (noteUnread input unread) s)
      (runOn (noteUnread input unread) t) := by
  unfold noteUnread
  split
  · exact .ok (h.noting _ _)
  · exact .ok h

omit hS in
/-- In sessions that go alongside, the same becomes of a program. -/
theorem Session.Alongside.start_eq (h : s.Alongside t) (name : String) (args : List String)
    (input : Feed) (out err : Sink) :
    s.start name args input out err = t.start name args input out err := by
  rcases Session.unlogged_eq_iff.1 h.same with ⟨records, launches, rfl⟩
  have hstart : s.programs.start s.launches = s.programs.start launches := h.repeats.step.1
  rw [Session.start, hstart]
  rfl

/-- A program does the same in sessions that go alongside. -/
theorem runProgram_indistinct (name : String) (args : List String) (input : Feed) (hab : S a b)
    (h : s.Alongside t) :
    Joint (Ended.SameBut S) Session.Alongside (runOn (runProgram name args input out a) s)
      (runOn (runProgram name args input out b) t) := by
  have hlaunched := (h.noting (.spawning name args.length) (.spawning name args.length)).launching
  -- A program sees neither the journal nor what stands in the sink, so it leaves the same.
  have hstart : s.start name args input out a = t.start name args input out b := by
    rw [h.start_eq, Session.start, hS.handedOut hab]
    rfl
  have hhost : s.scene.host = t.scene.host := by
    have hhost := congrArg (fun u : Session => u.scene.host) h.same
    exact hhost
  have hlimits : s.limits = t.limits := by
    have hlimits := congrArg Session.limits h.same
    exact hlimits
  rw [runProgram, runProgram, runOn_bind_of_ok (runOn_get s), runOn_bind_of_ok (runOn_get t),
    runOn_bind_of_ok (runOn_note _ _), runOn_bind_of_ok (runOn_note _ _),
    runOn_bind_of_ok (runOn_modify _ _), runOn_bind_of_ok (runOn_modify _ _), ← hstart, ← hhost,
    ← hlimits]
  cases s.start name args input out a with
  | error fault =>
      dsimp only
      rw [runOn_bind_of_ok (runOn_note _ _), runOn_bind_of_ok (runOn_note _ _)]
      exact (report_indistinct hS _ hab (hlaunched.noting _ _)).bind fun _ _ _ _ _ hsinks =>
        .ok ⟨rfl, rfl, hsinks⟩
  | ok left =>
      have hafter := hS.after left.err hab
      have hleft : ((s.noting (.spawning name args.length)).launching.withHost
        (s.scene.host.after left)).Alongside
          ((t.noting (.spawning name args.length)).launching.withHost
            (s.scene.host.after left)) := by
        have hsame := congrArg (fun u : Session => u.withHost (s.scene.host.after left))
          hlaunched.same
        exact hlaunched.of_kept hsame rfl rfl rfl
      dsimp only
      rw [runOn_bind_of_ok (runOn_modify _ _), runOn_bind_of_ok (runOn_modify _ _)]
      refine (noteUnread_alongside input left.unread hleft).bind fun _ _ u u' _ hu => ?_
      split
      · rw [runOn_bind_of_ok (runOn_note _ _), runOn_bind_of_ok (runOn_note _ _)]
        exact (report_indistinct hS _ (hS.afterStop hab hafter) (hu.noting _ _)).bind fun _ _ _ _ _
          hsinks =>
          .ok ⟨rfl, rfl, hsinks⟩
      · rw [runOn_bind_of_ok (runOn_note _ _), runOn_bind_of_ok (runOn_note _ _)]
        exact .ok ⟨rfl, rfl, hafter, hu.noting _ _⟩

end Commands

/-! ## Stages -/

/-- Two runs side by side, the second with `pre` in front of its error sink and perhaps at another
time. Nothing is sent away. -/
def Trailing (pre o : Bytes) (a b : Sink) (s t : Session) : Prop :=
  o = [] ∧ Sink.More pre a b ∧ s.Alongside t

section Trailing

variable {pre : Bytes} {P : Bytes → Bytes → Prop} {a b out : Sink} {s t : Session}
  {sub : Substitution} {wiring : Wiring} {v : Visit} {stage : Stage String} {files : StageFiles}
    {input input' : Input}

/-- Running behind what was written before is a likeness. -/
theorem trailing_likeness (pre o : Bytes) : Likeness (Trailing pre o) Session.Alongside where
  seen h := Session.seen_eq_of_unlogged_eq h.2.2.same
  stable {a b s t s' t'} h hseen hs ht := by
    simp only [Session.aside, Prod.mk.injEq] at hs ht
    rcases hs with ⟨hsout, hprograms, hscount⟩
    rcases ht with ⟨htout, -, htcount⟩
    have houtlets : s.scene.outlets = t.scene.outlets := by
      have houtlets := congrArg (fun u : Session => u.scene.outlets) h.2.2.same
      exact houtlets
    have hsame := Session.unlogged_eq_of hseen (hsout.trans (houtlets.trans htout.symm))
    exact ⟨h.1, h.2.1, h.2.2.of_kept hsame hprograms hscount htcount⟩
  report text h :=
    (report_indistinct (Sink.indistinct_more pre) text h.2.1 h.2.2).imp fun _ _ _ _ hsinks =>
      ⟨h.1, hsinks⟩
  error h := h.2.2

/-- Ends that differ in the error sink alone, once sinks that were replaced by files are as they
were. -/
theorem settle_trailing {S : Sink → Sink → Prop} {e e' : Ended} (hP : ∀ kept, P [] kept)
    (h : e.SameBut S e' s t) (hkept : files.stderr.isSome = true → Sink.More pre a b)
    (hown : files.stderr.isSome = false → S e.err e'.err → Sink.More pre e.err e'.err) :
    Ended.Like (Trailing pre) P (files.settle out a e) (files.settle out b e') s t := by
  rcases h with ⟨houtcome, hout, herr, hsame⟩
  refine ⟨houtcome, [], hP _, fun _ => rfl, ?_, rfl, ?_, hsame⟩
  · rw [StageFiles.settle, StageFiles.settle, hout]
    rfl
  · rw [StageFiles.settle, StageFiles.settle]
    dsimp only
    cases hfile : files.stderr.isSome with
    | true => exact hkept hfile
    | false => exact hown hfile herr

/-- A command reads its own input, which is the same in both runs, or it is a builtin that does not
care. -/
theorem runCommand_trailing (hP : ∀ kept, P [] kept) (h : Trailing pre [] a b s t)
    (hcommand : (input = input' ∧ s.Discreet) ∨ ∃ builtin,
      s.table.lookup stage.name = some builtin ∧
      Builtin.standard.lookup stage.name = some builtin) :
    Joint (Ended.Like (Trailing pre) P) Session.Alongside
      (runOn (runCommand stage files input out a) s)
        (runOn (runCommand stage files input' out b) t) := by
  rcases h with ⟨-, hmore, hsame⟩
  have hseen := Session.seen_eq_of_unlogged_eq hsame.same
  -- A file takes the place of both error sinks, or of neither.
  have hsinks : ∃ S, Sink.Indistinct S ∧ S (files.errOr a) (files.errOr b) ∧
      (files.stderr.isSome = false → ∀ x y, S x y → Sink.More pre x y) := by
    rw [StageFiles.errOr, StageFiles.errOr]
    cases files.stderr with
    | none => exact ⟨_, Sink.indistinct_more pre, hmore, fun _ _ _ h => h⟩
    | some handle => exact ⟨Eq, Sink.indistinct_eq, rfl, fun h => by cases h⟩
  rcases hsinks with ⟨S, hS, herrs, hown⟩
  have hsettle : ∀ e e' u u', Ended.SameBut S e e' u u' →
      Ended.Like (Trailing pre) P (files.settle out a e) (files.settle out b e') u u' :=
    fun e e' u u' hends => settle_trailing hP hends (fun _ => hmore) fun hfile => hown hfile _ _
  cases hfound : s.table.lookup stage.name with
  | some builtin =>
      refine runCommand_builtin_alike hseen hsame hfound fun stdin stdin' hstdin => ?_
      refine (runBuiltin_indistinct hS ?_ stage.name herrs hsame).map hsettle
      rcases hcommand with ⟨hinput, hdiscreet⟩ | ⟨_, hfound', hstandard⟩
      · rw [hstdin hinput]
        exact (hdiscreet stage.name builtin hfound).coupled stage.args stdin'
      · cases hfound.symm.trans hfound'
        exact standard_coupled coupling_sameDesk hstandard stage.args stdin stdin'
  | none =>
      rcases hcommand with ⟨rfl, -⟩ | ⟨_, hfound', -⟩
      · have hfound' : t.table.lookup stage.name = none := by
          rw [← Session.table_eq_of_seen_eq hseen]
          exact hfound
        rw [runOn_runCommand_of_absent hfound, runOn_runCommand_of_absent hfound']
        exact (runProgram_indistinct hS _ _ _ herrs hsame).map hsettle
      · cases hfound.symm.trans hfound'

/-! ## Runs -/

/-- The substitution goes alike in runs side by side, whatever is in front of the error sink. -/
def Substitution.Trailing (sub : Substitution) (wiring : Wiring) : Prop :=
  ∀ pre q a b s t, s.Discreet → LineShell.Trailing pre [] a b s t →
    Joint (Beside (LineShell.Trailing pre [])) Session.Alongside (runOn (sub q wiring a) s)
      (runOn (sub q wiring b) t)

/-- A refusal only adds to what was written before. -/
theorem refuse_trailing : Substitution.Trailing refuse wiring :=
  fun pre q _ _ _ _ _ h => refuse_alike (trailing_likeness pre []) q wiring wiring h

/-- Pipelines that keep their error output do the same in sessions that go alongside. -/
def RunsDiscreetly (run : Pipeline → Wiring → Exec Result) : Prop :=
  ∀ p wiring s t, wiring.captureErrors = true → s.Discreet → s.Alongside t →
    Joint (fun r r' s t => r = r' ∧ s.Alongside t) Session.Alongside (runOn (run p wiring) s)
      (runOn (run p wiring) t)

/-- Passing text on only adds to what was written before. -/
theorem passOn_trailing (text : String) (h : Trailing pre [] a b s t) :
    Joint (Trailing pre []) Session.Alongside (runOn (passOn a text) s)
      (runOn (passOn b text) t) := by
  unfold passOn
  split
  · exact .ok h
  · exact (write_indistinct (Sink.indistinct_more pre) _ h.2.1 h.2.2).imp fun _ _ _ _ hsinks =>
      ⟨rfl, hsinks⟩

/-- Entering a level keeps sessions alongside. -/
theorem Session.Alongside.enter (h : s.Alongside t) : s.enter.Alongside t.enter := by
  have henter := congrArg Session.enter h.same
  exact ⟨henter, h.repeats⟩

/-- Leaving a level keeps sessions alongside. -/
theorem Session.Alongside.leave (h : s.Alongside t) : s.leave.Alongside t.leave := by
  have hleave := congrArg Session.leave h.same
  exact ⟨hleave, h.repeats⟩

/-- A captured substitution adds its errors behind what was written before. -/
theorem nest_trailing {run : Pipeline → Wiring → Exec Result} (hrun : RunsDiscreetly run)
    (hcapture : wiring.captureErrors = true) : Substitution.Trailing (nest run) wiring := by
  intro pre q a b s t hdiscreet h
  -- The nested pipeline has an error sink of its own, so it does not meet `pre`.
  have hinner := hrun q wiring.nested s.enter t.enter hcapture hdiscreet h.2.2.enter
  rw [runOn_nest, runOn_nest]
  generalize runOn (run q wiring.nested) s.enter = r at hinner ⊢
  generalize runOn (run q wiring.nested) t.enter = r' at hinner ⊢
  cases hinner with
  | error states => exact .error states.leave
  | @ok result _ u u' values =>
      rcases values with ⟨rfl, hsame⟩
      have hnext : Trailing pre [] a b u.leave u'.leave := ⟨rfl, h.2.1, hsame.leave⟩
      refine (passOn_trailing result.stderr hnext).bind ?_
      exact fun _ _ _ _ _ hlike => .ok ⟨rfl, hlike⟩

/-- One stage in runs side by side. -/
theorem Visit.Runs.trailing (hrun : v.Runs sub wiring) (hsub : sub.Trailing wiring)
    (hframe : sub.KeepsFrame) (hdiscreet : v.before.Discreet) (hP : ∀ kept, P [] kept)
    (h : Trailing pre [] v.err b v.before t)
    (hinput : v.input = input' ∨ v.RunsStandard sub wiring) :
    Joint (Ended.Like (Trailing pre) P) Session.Alongside (v.result, v.after)
      (runOn (runStage sub wiring v.command input' v.out b) t) := by
  have hL := trailing_likeness pre []
  refine hrun.alike hL ?_ ?_ ?_ h
  · intro q a b u u' hq hlike
    exact hsub pre q a b u u' (hdiscreet.of_frame_eq (hq.frame_eq hframe)) hlike
  · intro outcome a b u u' hlike
    exact ⟨rfl, [], hP _, fun _ => rfl, rfl, hlike⟩
  · intro stage files a b u u' hready hname hlike
    refine runCommand_trailing hP (hL.noting hlike _ _) ?_
    refine hinput.imp (fun hinput => ⟨hinput, ?_⟩) fun hstandard =>
      hstandard stage files a u hready hname
    exact hdiscreet.of_frame_eq (hready.frame_eq hframe)

/-- All that the first run keeps is kept by the second. -/
def SendsNothing (o _ : Bytes) : Prop :=
  o = []

/-- The stages of a pipeline in runs side by side. -/
theorem runStages_trailing (hsub : sub.Trailing wiring) (hframe : sub.KeepsFrame)
    {total total' i i' : Nat} {p : Pipeline} (hdiscreet : s.Discreet) {I : Input → Input → Prop}
    (hI : ∀ bs, I (.piped bs) (.piped bs))
    (hstage : ∀ (k : Nat) (v : Visit) input', (visitsFrom sub wiring total i input a p s)[k]? =
    some v →
      I v.input input' → v.input = input' ∨ v.RunsStandard sub wiring)
    (hinput : I input input') (h : Trailing pre [] a b s t) :
    Joint (Flow.Like (Trailing pre) SendsNothing) Session.Alongside
      (runOn (runStages sub wiring total i input a p) s)
        (runOn (runStages sub wiring total' i' input' b p) t) := by
  refine runStages_alike (P := SendsNothing) (trailing_likeness pre) hI rfl ?_ hinput h
  intro k v input' b t hv hfeeds hlike
  have hmem := List.mem_of_getElem? hv
  rw [← visitsFrom_output hv]
  refine (visitsFrom_runs hmem).trailing hsub hframe ?_ ?_ hlike (hstage k v input' hv hfeeds)
  · exact hdiscreet.of_frame_eq (visitsFrom_frame hframe hmem)
  · intro kept
    rw [SentBy]
    split <;> rfl

/-- Runs whose substitutions only add to what was written before are discreet. -/
theorem runWith_discreet (hsub : ∀ wiring, wiring.captureErrors = true → sub.Trailing wiring)
    (hframe : sub.KeepsFrame) : RunsDiscreetly (runWith sub) := by
  intro p wiring s t hcapture hdiscreet hsame
  have hsinks : Trailing [] [] wiring.errorSink wiring.errorSink s t := by
    rw [Wiring.errorSink, if_pos hcapture]
    exact ⟨rfl, ⟨[], rfl, rfl⟩, hsame⟩
  have hstages := @runStages_trailing [] _ _ s t sub wiring wiring.firstInput wiring.firstInput
    (hsub wiring hcapture) hframe p.length p.length 0 0 p hdiscreet Eq
    (fun _ => rfl) (fun _ _ _ _ => .inl) rfl hsinks
  refine hstages.bind fun f f' u u' _ hlike => .ok ?_
  rcases hlike with ⟨hcode, hexit, o, rfl, houtput, -, ⟨bytes, herr, herr'⟩, hsame⟩
  refine ⟨?_, hsame⟩
  rw [hcode, hexit, houtput, herr, herr']
  rfl

/-- Pipelines do the same in sessions that go alongside. -/
theorem runWithin_discreet (levels : Nat) : RunsDiscreetly (runWithin levels) := by
  induction levels with
  | zero => exact runWith_discreet (fun _ _ => refuse_trailing) refuse_keepsFrame
  | succ levels ih =>
      exact runWith_discreet (fun _ => nest_trailing ih)
        (nest_keepsFrame (runWithin_keeps_frame levels))

/-- At every depth, a captured substitution adds only to what was written before. -/
theorem substitutionWithin_trailing (levels : Nat) (hcapture : wiring.captureErrors = true) :
    (substitutionWithin levels).Trailing wiring := by
  cases levels with
  | zero => exact refuse_trailing
  | succ levels => exact nest_trailing (runWithin_discreet levels) hcapture

end Trailing

end LineShell
