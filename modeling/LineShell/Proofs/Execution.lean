import LineShell.Run

/-!
# Execution — what a computation of the shell does to a session

Builtins, programs and the shell itself are computations that turn a state into a value or an error
and the state after it. This file opens such computations step by step, and says which parts of a
session the steps of a line leave alone.

* `runOn` — a computation as a function of states, with one equation for each way to build one;
* `Keeps view x` — whatever comes of `x`, the state looks the same through `view`;
* `Session.ledger`, `Session.frame` — all of a session but the scene, and of that all but the flag
  for failed expansions;
* `runCommand_keeps_ledger` — commands leave the ledger alone;
* `runWithin_keeps_frame` — pipelines leave the frame alone, so the depth too.
-/

namespace LineShell

/-! ## Computations as functions -/

section Steps

variable {ε σ α β γ δ : Type}

/-- What becomes of a state: the value or the error of a computation, and the state after it. -/
def runOn (x : ExceptT ε (StateM σ) α) (s : σ) : Except ε α × σ :=
  x.run s

variable {x : ExceptT ε (StateM σ) α} {f : α → ExceptT ε (StateM σ) β} {s t u : σ} {a : α} {b : β}
  {e : ε}

@[simp] theorem runOn_pure (a : α) (s : σ) :
    runOn (pure a : ExceptT ε (StateM σ) α) s = (.ok a, s) := rfl

@[simp] theorem runOn_get (s : σ) : runOn (get : ExceptT ε (StateM σ) σ) s = (.ok s, s) := rfl

@[simp] theorem runOn_set (s t : σ) :
    runOn (set t : ExceptT ε (StateM σ) PUnit) s = (.ok ⟨⟩, t) := rfl

@[simp] theorem runOn_modify (g : σ → σ) (s : σ) :
    runOn (modify g : ExceptT ε (StateM σ) PUnit) s = (.ok ⟨⟩, g s) := rfl

/-- A bind runs the second action where the first one ends, unless it fails. -/
theorem runOn_bind (x : ExceptT ε (StateM σ) α) (f : α → ExceptT ε (StateM σ) β) (s : σ) :
    runOn (x >>= f) s =
      match runOn x s with
      | (.ok a, t) => runOn (f a) t
      | (.error e, t) => (.error e, t) := by
  change (ExceptT.bindCont f (runOn x s).1 : StateM _ _) (runOn x s).2 = _
  rcases runOn x s with ⟨r, t⟩
  cases r with
  | ok a => rfl
  | error e => rfl

/-- Whether a run has that value can be computed. -/
theorem runOn_eq_ok (h : (runOn x s).1.toOption = some a) : runOn x s = (.ok a, (runOn x s).2) := by
  rcases hrun : runOn x s with ⟨e | b, t⟩ <;> rw [hrun] at h <;> cases h
  rfl

/-- A bind goes on from where the first action ends. -/
theorem runOn_bind_of_ok (h : runOn x s = (.ok a, t)) : runOn (x >>= f) s = runOn (f a) t := by
  rw [runOn_bind, h]

/-- A bind ends where its first action fails. -/
theorem runOn_bind_of_error (h : runOn x s = (.error e, t)) :
    runOn (x >>= f) s = (.error e, t) := by
  rw [runOn_bind, h]

/-- A bind succeeds if both of its actions do, one behind the other. -/
theorem runOn_bind_eq_ok_iff :
    runOn (x >>= f) s = (.ok b, u) ↔
      ∃ a t, runOn x s = (.ok a, t) ∧ runOn (f a) t = (.ok b, u) := by
  rw [runOn_bind]
  rcases runOn x s with ⟨r, t⟩
  cases r with
  | ok a => simp [and_assoc]
  | error e => simp

/-- A bind fails in its first action, or in the second behind it. -/
theorem runOn_bind_eq_error_iff :
    runOn (x >>= f) s = (.error e, u) ↔
      runOn x s = (.error e, u) ∨
        ∃ a t, runOn x s = (.ok a, t) ∧ runOn (f a) t = (.error e, u) := by
  rw [runOn_bind]
  rcases runOn x s with ⟨r, t⟩
  cases r with
  | ok a => simp [and_assoc]
  | error e => simp

/-- A map changes the result and not the state. -/
theorem runOn_map (g : α → β) (x : ExceptT ε (StateM σ) α) (s : σ) :
    runOn (g <$> x) s = ((runOn x s).1.map g, (runOn x s).2) := by
  rw [map_eq_pure_bind, runOn_bind]
  rcases runOn x s with ⟨r, t⟩
  cases r with
  | ok a => rfl
  | error e => rfl

/-! ## What stays as it was -/

/-- Whatever comes of the computation, the state looks the same through `view` as before. -/
def Keeps (view : σ → γ) (x : ExceptT ε (StateM σ) α) : Prop :=
  ∀ s, view (runOn x s).2 = view s

namespace Keeps

variable {view : σ → γ}

theorem pure (a : α) : Keeps view (Pure.pure a : ExceptT ε (StateM σ) α) :=
  fun _ => rfl

theorem get : Keeps view (MonadState.get : ExceptT ε (StateM σ) σ) :=
  fun _ => rfl

theorem bind (hx : Keeps view x) (hf : ∀ a, Keeps view (f a)) : Keeps view (x >>= f) := by
  intro s
  have hs := hx s
  rw [runOn_bind]
  rcases hr : runOn x s with ⟨r, t⟩
  rw [hr] at hs
  cases r with
  | ok a => exact (hf a t).trans hs
  | error e => exact hs

theorem eq {r : Except ε α} (h : Keeps view x) (hs : runOn x s = (r, t)) : view t = view s := by
  have := h s
  rwa [hs] at this

/-- What is seen through two views one behind the other is kept if it is seen through the first. -/
theorem comp (h : Keeps view x) (g : γ → δ) : Keeps (g ∘ view) x :=
  fun s => congrArg g (h s)

end Keeps

end Steps

/-! ## Writing -/

@[simp] theorem runOn_note (event : Log.Event) (s : Session) :
    runOn (Exec.note event) s = (.ok (), s.noting event) := rfl

@[simp] theorem runOn_observe {α : Type} (x : Exec α) (s : Session) :
    runOn (Exec.observe x) s = (.ok (runOn x s).1, (runOn x s).2) := rfl

/-- A write hands its sink and the host on, or fails with the fault. -/
theorem runOn_write (sink : Sink) (bs : Bytes) (s : Session) :
    runOn (Exec.write sink bs) s =
      match sink.write bs s.scene.host with
      | (sink, host, .ok ()) => (.ok sink, s.withHost host)
      | (_, host, .error fault) => (.error (.stream fault), s.withHost host) := by
  simp only [Exec.write, runOn_bind, runOn_get, runOn_set]
  rcases sink.write bs s.scene.host with ⟨sink', host, r⟩
  cases r with
  | ok _ => rfl
  | error fault => rfl

/-- Memory takes every byte. -/
theorem runOn_write_buffer (bytes bs : Bytes) (s : Session) :
    runOn (Exec.write (.buffer bytes) bs) s = (.ok (.buffer (bytes ++ bs)), s) := by
  rw [runOn_write]
  rfl

/-- A report into a buffer puts its line behind what is there. -/
theorem runOn_report_buffer (bytes : Bytes) (text : String) (s : Session) :
    runOn (Exec.report (.buffer bytes) text) s =
      (.ok (.buffer (bytes ++ Utf8.encode (text ++ "\n"))), s) :=
  runOn_write_buffer bytes _ s

/-! ## The ledger and the frame -/

namespace Session

/-- A session without its scene and the number of launches: builtins, programs, limits, policy and
the two marks of the line. -/
def ledger (s : Session) : Session :=
  { s with scene := {}, launches := 0 }

def frame (s : Session) : Session :=
  { s with scene := {}, launches := 0, expansionFailed := false }

/-- The frame forgets the flag of the ledger. -/
theorem frame_eq_comp : frame = (fun s => { s with expansionFailed := false }) ∘ ledger := rfl

theorem table_eq_of_frame_eq {s t : Session} (h : t.frame = s.frame) : t.table = s.table := by
  have hframe := congrArg Session.table h
  exact hframe

theorem programs_eq_of_frame_eq {s t : Session} (h : t.frame = s.frame) :
    t.programs = s.programs := by
  have hframe := congrArg Session.programs h
  exact hframe

theorem limits_eq_of_frame_eq {s t : Session} (h : t.frame = s.frame) : t.limits = s.limits := by
  have hframe := congrArg Session.limits h
  exact hframe

theorem depth_eq_of_frame_eq {s t : Session} (h : t.frame = s.frame) : t.depth = s.depth := by
  have hframe := congrArg Session.depth h
  exact hframe

theorem flag_eq_of_ledger_eq {s t : Session} (h : t.ledger = s.ledger) :
    t.expansionFailed = s.expansionFailed := by
  have hledger := congrArg Session.expansionFailed h
  exact hledger

end Session

/-- What keeps the ledger keeps the frame. -/
theorem Keeps.frame {α : Type} {x : Exec α} (h : Keeps Session.ledger x) :
    Keeps Session.frame x := by
  rw [Session.frame_eq_comp]
  exact h.comp _

theorem note_keeps_ledger (event : Log.Event) : Keeps Session.ledger (Exec.note event) :=
  fun _ => rfl

theorem write_keeps_ledger (sink : Sink) (bs : Bytes) :
    Keeps Session.ledger (Exec.write sink bs) := by
  intro s
  rw [runOn_write]
  split <;> rfl

theorem report_keeps_ledger (sink : Sink) (text : String) :
    Keeps Session.ledger (Exec.report sink text) :=
  write_keeps_ledger sink _

/-! ## Opening -/

theorem openOne_keeps_ledger (files : StageFiles) (r : Redirection String) :
    Keeps Session.ledger (openOne files r) := by
  intro s
  simp only [openOne, runOn_bind, runOn_get]
  cases s.scene.host.disk.openFor r.role r.append (Path.resolve s.scene.cwd r.target) with
  | error fault => rfl
  | ok opened =>
      rcases opened with ⟨disk, handle⟩
      simp only [runOn_bind, runOn_set, runOn_note]
      cases r.role <;> rfl

theorem openAll_keeps_ledger (files : StageFiles) (rs : List (Redirection String)) :
    Keeps Session.ledger (openAll files rs) := by
  induction rs generalizing files with
  | nil => exact .pure _
  | cons r rs ih =>
      rw [openAll]
      refine .bind (openOne_keeps_ledger files r) ?_
      intro opened
      cases opened with
      | ok files => exact ih files
      | error failure => exact .pure _

/-! ## Commands -/

theorem builtinInput_keeps_ledger (file : Option Handle) (input : Input) :
    Keeps Session.ledger (builtinInput file input) := by
  intro s
  unfold builtinInput
  split
  · simp only [runOn_bind, runOn_get]
    split <;> rfl
  · rfl
  · rfl

/-- A builtin works on the scene. What it throws is reported once its sinks are back. -/
theorem runOn_runBuiltin (b : Builtin) (name : String) (args : List String) (stdin : Option Bytes)
    (out err : Sink) (s : Session) :
    runOn (runBuiltin b name args stdin out err) s =
      match runOn (b args stdin) ⟨s.scene, out.handedOut, err.handedOut⟩ with
      | (.ok (.code n), desk) =>
          (.ok ⟨.finished n, out.receive desk.out, err.receive desk.err⟩, s.withScene desk.scene)
      | (.ok (.exit n), desk) =>
          (.ok ⟨.exited n, out.receive desk.out, err.receive desk.err⟩, s.withScene desk.scene)
      | (.error e, desk) =>
          runOn (do
            let err ← Exec.report (err.receive desk.err) s!"{name}: {e.message}"
            return ⟨.finished 1, out.receive desk.out, err⟩) (s.withScene desk.scene) := by
  have hrun : (b args stdin).run ⟨s.scene, out.handedOut, err.handedOut⟩ =
      runOn (b args stdin) ⟨s.scene, out.handedOut, err.handedOut⟩ := rfl
  rw [runBuiltin, runOn_bind_of_ok (runOn_get s)]
  simp only [hrun]
  rcases runOn (b args stdin) ⟨s.scene, out.handedOut, err.handedOut⟩ with ⟨answer, desk⟩
  rw [runOn_bind_of_ok (runOn_set s _)]
  rcases answer with e | (n | n) <;> rfl

/-- No builtin touches the ledger. -/
theorem runBuiltin_keeps_ledger (b : Builtin) (name : String) (args : List String)
    (stdin : Option Bytes) (out err : Sink) :
    Keeps Session.ledger (runBuiltin b name args stdin out err) := by
  intro s
  rw [runOn_runBuiltin]
  rcases runOn (b args stdin) ⟨s.scene, out.handedOut, err.handedOut⟩ with ⟨e | (n | n), desk⟩
  · exact (report_keeps_ledger _ _).bind (fun _ => .pure _) (s.withScene desk.scene)
  · rfl
  · rfl

theorem noteUnread_keeps_ledger (input : Feed) (unread : Option Int) :
    Keeps Session.ledger (noteUnread input unread) := by
  unfold noteUnread
  split
  · exact note_keeps_ledger _
  · exact .pure _

/-- No program touches the ledger. -/
theorem runProgram_keeps_ledger (name : String) (args : List String) (input : Feed)
    (out err : Sink) : Keeps Session.ledger (runProgram name args input out err) := by
  refine .bind .get fun s => .bind (note_keeps_ledger _) fun _ => .bind (fun _ => rfl) fun _ => ?_
  split
  · exact .bind (note_keeps_ledger _) fun _ => .bind (report_keeps_ledger _ _) fun _ => .pure _
  · refine .bind (fun _ => rfl) fun _ => .bind (noteUnread_keeps_ledger _ _) fun _ => ?_
    split
    · exact .bind (note_keeps_ledger _) fun _ => .bind (report_keeps_ledger _ _) fun _ => .pure _
    · exact .bind (note_keeps_ledger _) fun _ => .pure _

theorem runCommand_keeps_ledger (stage : Stage String) (files : StageFiles) (input : Input)
    (out err : Sink) : Keeps Session.ledger (runCommand stage files input out err) := by
  refine .bind .get fun s => ?_
  dsimp only
  split
  · exact .bind (builtinInput_keeps_ledger _ _) fun _ =>
      .bind (runBuiltin_keeps_ledger _ _ _ _ _ _) fun _ => .pure _
  · exact .bind (runProgram_keeps_ledger _ _ _ _ _) fun _ => .pure _

/-! ## Expansion and pipelines -/

/-- A substitution leaves the frame alone. -/
def Substitution.KeepsFrame (sub : Substitution) : Prop :=
  ∀ p wiring err, Keeps Session.frame (sub p wiring err)

theorem refuse_keepsFrame : Substitution.KeepsFrame refuse := by
  intro p wiring err
  refine .bind .get fun s => .bind (report_keeps_ledger _ _).frame fun _ => ?_
  exact .bind (fun _ => rfl) fun _ => .pure _

theorem passOn_keeps_ledger (err : Sink) (text : String) :
    Keeps Session.ledger (passOn err text) := by
  unfold passOn
  split
  · exact .pure _
  · exact write_keeps_ledger _ _

/-- A nested pipeline runs one level deeper. Its error is passed on from the level above. -/
theorem runOn_nest (run : Pipeline → Wiring → Exec Result) (p : Pipeline) (wiring : Wiring)
    (err : Sink) (s : Session) :
    runOn (nest run p wiring err) s =
      match runOn (run p wiring.nested) s.enter with
      | (.error e, t) => (.error e, t.leave)
      | (.ok result, t) =>
          runOn (do
            let err ← passOn err result.stderr
            return (dropLineEnds result.stdout, err)) t.leave := by
  rw [nest, runOn_bind_of_ok (runOn_modify _ s), runOn_bind_of_ok (runOn_observe _ _),
    runOn_bind_of_ok (runOn_modify _ _)]
  rcases runOn (run p wiring.nested) s.enter with ⟨r, t⟩
  cases r with
  | error e => rfl
  | ok result => rfl

/-- Leaving a level undoes what entering it did to the frame. -/
theorem Session.frame_leave_of_frame_enter {s t : Session} (h : t.frame = s.enter.frame) :
    t.leave.frame = s.frame := by
  have hleave := congrArg Session.leave h
  exact hleave

/-- The depth goes up and comes down again, whatever the pipeline ends in. -/
theorem nest_keepsFrame {run : Pipeline → Wiring → Exec Result}
    (hrun : ∀ p wiring, Keeps Session.frame (run p wiring)) :
    Substitution.KeepsFrame (nest run) := by
  intro p wiring err s
  have hinner := hrun p wiring.nested s.enter
  rw [runOn_nest]
  rcases hr : runOn (run p wiring.nested) s.enter with ⟨r, t⟩
  rw [hr] at hinner
  -- Coming back happens before the result is looked at.
  have hback := Session.frame_leave_of_frame_enter hinner
  cases r with
  | error e => exact hback
  | ok result =>
      have hpass : Keeps Session.frame (do
          let err ← passOn err result.stderr
          return (dropLineEnds result.stdout, err)) :=
        .bind (passOn_keeps_ledger _ _).frame fun _ => .pure _
      exact (hpass t.leave).trans hback

section Frame

variable {sub : Substitution} (hsub : sub.KeepsFrame) (wiring : Wiring)
include hsub

theorem expandPart_keeps_frame (err : Sink) (part : Part) :
    Keeps Session.frame (expandPart sub wiring err part) := by
  cases part with
  | text s => exact .pure _
  | var name => exact .bind .get fun _ => .bind (note_keeps_ledger _).frame fun _ => .pure _
  | substitution p => exact hsub p wiring err

theorem expandWord_keeps_frame (err : Sink) (w : Word) :
    Keeps Session.frame (expandWord sub wiring err w) := by
  induction w generalizing err with
  | nil => exact .pure _
  | cons part rest ih =>
      exact .bind (expandPart_keeps_frame hsub wiring err part) fun first =>
        .bind (ih first.2) fun _ => .pure _

theorem expandWords_keeps_frame (err : Sink) (ws : List Word) :
    Keeps Session.frame (expandWords sub wiring err ws) := by
  induction ws generalizing err with
  | nil => exact .pure _
  | cons w rest ih =>
      exact .bind (expandWord_keeps_frame hsub wiring err w) fun first =>
        .bind (ih first.2) fun _ => .pure _

theorem expandTargets_keeps_frame (err : Sink) (rs : List (Redirection Word)) :
    Keeps Session.frame (expandTargets sub wiring err rs) := by
  induction rs generalizing err with
  | nil => exact .pure _
  | cons r rest ih =>
      exact .bind (expandWord_keeps_frame hsub wiring err r.target) fun first =>
        .bind (ih first.2) fun _ => .pure _

theorem expandStage_keeps_frame (err : Sink) (command : Command) :
    Keeps Session.frame (expandStage sub wiring err command) :=
  .bind (expandWord_keeps_frame hsub wiring err _) fun name =>
    .bind (expandWords_keeps_frame hsub wiring name.2 _) fun args =>
      .bind (expandTargets_keeps_frame hsub wiring args.2 _) fun _ => .pure _

/-- A stage keeps the frame if its substitutions do. -/
theorem runStage_keeps_frame (command : Command) (input : Input) (out err : Sink) :
    Keeps Session.frame (runStage sub wiring command input out err) := by
  refine .bind (expandStage_keeps_frame hsub wiring err command) fun stage => .bind .get fun s => ?_
  dsimp only
  split
  · exact .bind (fun _ => rfl) fun _ => .pure _
  · refine .bind (openAll_keeps_ledger _ _).frame fun opened => ?_
    cases opened with
    | error failure => exact .bind (report_keeps_ledger _ _).frame fun _ => .pure _
    | ok files =>
        dsimp only
        split
        · exact .pure _
        · exact .bind (note_keeps_ledger _).frame fun _ => (runCommand_keeps_ledger _ _ _ _ _).frame

theorem runStages_keeps_frame (total i : Nat) (input : Input) (err : Sink) (p : Pipeline) :
    Keeps Session.frame (runStages sub wiring total i input err p) := by
  induction p generalizing i input err with
  | nil => exact .pure _
  | cons command rest ih =>
      refine .bind (note_keeps_ledger _).frame fun _ =>
        .bind (runStage_keeps_frame hsub wiring _ _ _ _) fun ended =>
          .bind (note_keeps_ledger _).frame fun _ => ?_
      split
      · exact .pure _
      · exact .pure _
      · split
        · exact .pure _
        · exact ih _ _ _

theorem runWith_keeps_frame (p : Pipeline) : Keeps Session.frame (runWith sub p wiring) :=
  .bind (runStages_keeps_frame hsub wiring _ _ _ _ _) fun _ => .pure _

end Frame

/-- What becomes of a substitution if so many more levels may be entered. -/
def substitutionWithin : Nat → Substitution
  | 0 => refuse
  | levels + 1 => nest (runWithin levels)

/-- Running within a limit is running with the substitutions of that limit. -/
theorem runWithin_eq_runWith (levels : Nat) :
    runWithin levels = runWith (substitutionWithin levels) := by
  cases levels <;> rfl

/-- A pipeline leaves the frame alone, whatever it ends in. -/
theorem runWithin_keeps_frame (levels : Nat) (p : Pipeline) (wiring : Wiring) :
    Keeps Session.frame (runWithin levels p wiring) := by
  induction levels generalizing p wiring with
  | zero => exact runWith_keeps_frame refuse_keepsFrame wiring p
  | succ levels ih => exact runWith_keeps_frame (nest_keepsFrame ih) wiring p

/-- At every depth, a substitution keeps the frame. -/
theorem substitutionWithin_keepsFrame (levels : Nat) : (substitutionWithin levels).KeepsFrame := by
  cases levels with
  | zero => exact refuse_keepsFrame
  | succ levels => exact nest_keepsFrame (runWithin_keeps_frame levels)

end LineShell
