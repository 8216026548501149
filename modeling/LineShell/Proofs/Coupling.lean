import LineShell.Proofs.Likeness
import LineShell.Proofs.Trail

/-!
# Coupling — builtins at two desks

The builtins that every session starts with read the variables, the working directory, the disk and
the home directory, they ask whether their output is a terminal, and that is all. So at two desks
that look the same to them, with sinks that take the same writes, they do the same. They never look
at their input.

* `Coupling` — what a correspondence of desks must allow for;
* `Coupled` — two actions do the same at corresponding desks;
* `standard_coupled` — the builtins that every session starts with, whatever they are given to read;
* `Visit.RunsStandard` — a stage runs such a builtin or nothing.
-/

namespace LineShell

/-- What a correspondence of desks must allow for. It does not look at the journal, it is kept when
the same is written to both outputs, or the same text to both error outputs, and both outputs are
terminals or neither is. -/
structure Coupling (D : Desk → Desk → Prop) : Prop where
  seen {d d' : Desk} : D d d' → d.scene.seen = d'.scene.seen
  terminal {d d' : Desk} : D d d' → d.out.isTerminal d.scene.host = d'.out.isTerminal d'.scene.host
  stable {d d' : Desk} {x y : Scene} : D d d' → x.seen = y.seen → x.outlets = d.scene.outlets →
    y.outlets = d'.scene.outlets → D { d with scene := x } { d' with scene := y }
  print {d d' : Desk} (bs : Bytes) : D d d' →
    Joint (fun _ _ => D) D (runOn (Action.print bs) d) (runOn (Action.print bs) d')
  report {d d' : Desk} (text : String) : D d d' →
    Joint (fun _ _ => D) D (runOn (Action.report (Utf8.encode text)) d)
      (runOn (Action.report (Utf8.encode text)) d')

/-- Two actions do the same at corresponding desks. -/
def Coupled {α : Type} (D : Desk → Desk → Prop) (x y : Action α) : Prop :=
  ∀ d d', D d d' → Joint (fun a b d d' => a = b ∧ D d d') D (runOn x d) (runOn y d')

section Steps

variable {α β : Type} {D : Desk → Desk → Prop}

namespace Coupled

theorem pure (a : α) : Coupled D (Pure.pure a) (Pure.pure a) :=
  fun _ _ h => .ok ⟨rfl, h⟩

theorem bind {x y : Action α} {f g : α → Action β} (hx : Coupled D x y)
    (hf : ∀ a, Coupled D (f a) (g a)) :
    Coupled D (x >>= f) (y >>= g) := by
  intro d d' h
  refine (hx d d' h).bind ?_
  rintro a _ e e' - ⟨rfl, h'⟩
  exact hf a e e' h'

theorem ite {c : Prop} [Decidable c] {x x' y y' : Action α} (hx : Coupled D x x')
    (hy : Coupled D y y') :
    Coupled D (if c then x else y) (if c then x' else y') := by
  split
  · exact hx
  · exact hy

end Coupled

variable (hD : Coupling D)
include hD

namespace Coupling

/-- What an action reads of the scene is the same on both sides. -/
theorem scene_bind {f g : Scene → Action α} (h : ∀ x y, x.seen = y.seen → Coupled D (f x) (g y)) :
    Coupled D (Action.scene >>= f) (Action.scene >>= g) :=
  fun d d' hd => h d.scene d'.scene (hD.seen hd) d d' hd

theorem printed (bs : Bytes) : Coupled D (Action.print bs) (Action.print bs) :=
  fun _ _ h => (hD.print bs h).imp fun _ _ _ _ h => ⟨rfl, h⟩

theorem reported (text : String) :
    Coupled D (Action.report (Utf8.encode text)) (Action.report (Utf8.encode text)) :=
  fun _ _ h => (hD.report text h).imp fun _ _ _ _ h => ⟨rfl, h⟩

theorem complained (text : String) : Coupled D (Action.complain text) (Action.complain text) :=
  hD.reported _

/-- Notes may differ, as the journal is not compared. -/
theorem noted (event event' : Log.Event) : Coupled D (Action.note event) (Action.note event') := by
  intro d d' h
  have hseen := hD.seen h
  exact .ok ⟨rfl, hD.stable h hseen rfl rfl⟩

/-- A change of what is seen that is made at both desks. -/
theorem changed {f : Scene → Scene} (hseen : ∀ x, (f x).seen = (f x.seen).seen)
    (houtlets : ∀ x, (f x).outlets = x.outlets) :
    Coupled D (modify fun d => { d with scene := f d.scene }) (modify fun d =>
      { d with scene := f d.scene }) := by
  intro d d' h
  refine .ok ⟨rfl, hD.stable h ?_ (houtlets _) (houtlets _)⟩
  rw [hseen, hseen d'.scene, hD.seen h]

theorem diskSet (disk : Disk) : Coupled D (Action.setDisk disk) (Action.setDisk disk) :=
  hD.changed (f := fun x => { x with host := { x.host with disk } }) (fun _ => rfl) fun _ => rfl

theorem envModified (f : Environment → Environment) :
    Coupled D (Action.modifyEnv f) (Action.modifyEnv f) :=
  hD.changed (f := fun x => { x with env := f x.env }) (fun _ => rfl) fun _ => rfl

theorem cwdSet (path : String) :
    Coupled D (modify fun d => { d with scene := { d.scene with cwd := path } })
      (modify fun d => { d with scene := { d.scene with cwd := path } }) :=
  hD.changed (f := fun x => { x with cwd := path }) (fun _ => rfl) fun _ => rfl

end Coupling

/-! ## Commands -/

theorem refuseOptions_coupled (command : String) (unknown : List String) :
    Coupled D (Action.refuseOptions command unknown) (Action.refuseOptions command unknown) :=
  .bind (hD.complained _) fun _ => .pure _

/-- Coupled scenes hand the same disk and the same paths to what is done with an operand. -/
theorem forOperands_coupled (act : Disk → String → Disk × Except Fault Unit)
    (message : String → Fault → String) (operands : List String) :
    Coupled D (Builtin.forOperands act message operands)
      (Builtin.forOperands act message operands) := by
  induction operands with
  | nil => exact .pure _
  | cons operand rest ih =>
      refine hD.scene_bind fun x y hxy => ?_
      rw [Scene.disk_eq_of_seen_eq hxy, Scene.pathOf_eq_of_seen_eq hxy]
      refine .bind (hD.diskSet _) fun _ => ?_
      split
      · exact ih
      · exact .bind (hD.complained _) fun _ => .bind ih fun _ => .pure _

theorem withOptions_coupled {command missing : String} {known : String → Bool} {args : List String}
    {run : Options → Action Completion} (h : ∀ o, Coupled D (run o) (run o)) :
    Coupled D (Builtin.withOptions command missing known args run)
      (Builtin.withOptions command missing known args run) :=
  .ite (refuseOptions_coupled hD _ _) (.ite (.bind (hD.complained _) fun _ => .pure _) (h _))

theorem exportAll_coupled (args : List String) :
    Coupled D (Builtin.exportAll args) (Builtin.exportAll args) := by
  induction args with
  | nil => exact .pure _
  | cons arg rest ih =>
      refine .ite (.bind (hD.envModified _) fun _ => ih) ?_
      exact .bind (hD.complained _) fun _ => .bind ih fun _ => .pure _

theorem unsetAll_coupled (args : List String) :
    Coupled D (Builtin.unsetAll args) (Builtin.unsetAll args) := by
  induction args with
  | nil => exact .pure _
  | cons arg rest ih =>
      refine .ite (hD.scene_bind fun x y hxy => ?_) (.bind (hD.complained _) fun _ =>
        .bind ih fun _ => .pure _)
      rw [Scene.env_eq_of_seen_eq hxy]
      refine .bind (hD.envModified _) fun _ => ?_
      exact .ite (.bind (hD.noted _ _) fun _ => ih) ih

/-- Both sides change to the same directory, or to none. -/
theorem cdTo_coupled (shown path : String) :
    Coupled D (Builtin.cdTo shown path) (Builtin.cdTo shown path) := by
  refine hD.scene_bind fun x y hxy => ?_
  rw [Scene.disk_eq_of_seen_eq hxy]
  split
  · refine .ite (.bind (hD.noted _ _) fun _ => ?_) (.bind (hD.complained _) fun _ => .pure _)
    exact .bind (hD.cwdSet path) fun _ => .pure _
  · exact .bind (hD.complained _) fun _ => .pure _

theorem cd_coupled (args : List String) (stdin stdin' : Option Bytes) :
    Coupled D (Builtin.cd args stdin) (Builtin.cd args stdin') := by
  refine hD.scene_bind fun x y hxy => ?_
  rw [Scene.home_eq_of_seen_eq hxy, Scene.cwd_eq_of_seen_eq hxy]
  split
  · rw [Scene.pathOf_eq_of_seen_eq hxy]
    exact cdTo_coupled hD _ _
  · exact cdTo_coupled hD _ _
  · exact .bind (hD.complained _) fun _ => .pure _

theorem ls_coupled (args : List String) (stdin stdin' : Option Bytes) :
    Coupled D (Builtin.ls args stdin) (Builtin.ls args stdin') := by
  refine .ite (refuseOptions_coupled hD _ _) fun d d' h => ?_
  have hseen := hD.seen h
  rw [runOn_bind_of_ok (runOn_get d), runOn_bind_of_ok (runOn_get d')]
  dsimp only
  -- Whether names are coloured depends on the output, which is not part of what is seen.
  rw [hD.terminal h, Scene.colors_eq_of_seen_eq hseen, Scene.disk_eq_of_seen_eq hseen]
  simp only [Scene.pathOf_eq_of_seen_eq hseen]
  refine Coupled.bind (hD.printed _) (fun _ => .ite (.pure _) ?_) d d' h
  exact .bind (hD.reported _) fun _ => .pure _

theorem env_coupled (args : List String) (stdin stdin' : Option Bytes) :
    Coupled D (Builtin.env args stdin) (Builtin.env args stdin') := by
  intro d d' h
  have hseen := hD.seen h
  rw [Builtin.env, Builtin.env, runOn_bind_of_ok (runOn_get d), runOn_bind_of_ok (runOn_get d')]
  rw [hD.terminal h, Scene.colors_eq_of_seen_eq hseen, Scene.env_eq_of_seen_eq hseen]
  exact Coupled.bind (hD.printed _) (fun _ => .pure _) d d' h

/-- The builtins that every session starts with do the same at corresponding desks, and their input
does not matter to them. -/
theorem standard_coupled {name : String} {b : Builtin} (h : Builtin.standard.lookup name = some b)
    (args : List String) (stdin stdin' : Option Bytes) :
    Coupled D (b args stdin) (b args stdin') := by
  rcases List.lookup_eq_some_iff.1 h with ⟨before, after, htable, -⟩
  have hmem : (name, b) ∈ Builtin.standard := by simp [htable]
  simp only [Builtin.standard, List.mem_cons, Prod.mk.injEq, List.not_mem_nil, or_false] at hmem
  -- The cases are the rows of the table, in its order.
  rcases hmem with ⟨-, rfl⟩ | ⟨-, rfl⟩ | ⟨-, rfl⟩ | ⟨-, rfl⟩ | ⟨-, rfl⟩ | ⟨-, rfl⟩ | ⟨-, rfl⟩ |
    ⟨-, rfl⟩ | ⟨-, rfl⟩ | ⟨-, rfl⟩ | ⟨-, rfl⟩ | ⟨-, rfl⟩ | ⟨-, rfl⟩
  · exact cd_coupled hD args stdin stdin'
  · refine hD.scene_bind fun x y hxy => ?_
    rw [Scene.cwd_eq_of_seen_eq hxy]
    exact .bind (hD.printed _) fun _ => .pure _
  · exact ls_coupled hD args stdin stdin'
  · exact withOptions_coupled hD fun _ => forOperands_coupled hD _ _ _
  · exact withOptions_coupled hD fun _ => forOperands_coupled hD _ _ _
  · exact withOptions_coupled hD fun _ => forOperands_coupled hD _ _ _
  · exact .bind (hD.printed _) fun _ => .pure _
  · exact exportAll_coupled hD args
  · exact unsetAll_coupled hD args
  · exact env_coupled hD args stdin stdin'
  · exact .pure _
  · exact .pure _
  · exact .pure _

end Steps

/-! ## Stages -/

/-- If the stage comes to run a command, then that is one of the builtins that every session starts
with. -/
def Visit.RunsStandard (sub : Substitution) (wiring : Wiring) (v : Visit) : Prop :=
  ∀ stage files err t, v.Ready sub wiring stage files err t → stage.name.isEmpty = false →
    ∃ b, t.table.lookup stage.name = some b ∧ Builtin.standard.lookup stage.name = some b

/-- A command whose name is written out, in a session with the standard table. -/
theorem Visit.runsStandard_of_name {sub : Substitution} {wiring : Wiring} {v : Visit}
    {name : String} {b : Builtin} (hframe : sub.KeepsFrame)
    (htable : v.before.table = Builtin.standard) (hname : v.command.name = [.text name])
    (hfound : Builtin.standard.lookup name = some b) : v.RunsStandard sub wiring := by
  intro stage files err t hready _
  have hsame := Session.table_eq_of_frame_eq (hready.frame_eq hframe)
  rcases hready with ⟨u, hexp, -, -⟩
  have hstage : stage.name = name := by
    rw [Visit.Expanded, expandStage, hname] at hexp
    rcases runOn_bind_eq_ok_iff.1 hexp with ⟨first, s₁, hfirst, hrest⟩
    rcases runOn_bind_eq_ok_iff.1 hrest with ⟨args, s₂, -, hrest⟩
    rcases runOn_bind_eq_ok_iff.1 hrest with ⟨targets, s₃, -, hends⟩
    cases hfirst
    cases hends
    exact String.append_empty
  rw [hsame, htable, hstage]
  exact ⟨b, hfound, hfound⟩

section Commands

variable {s t : Session} {input input' : Input} {stage : Stage String} {files : StageFiles}

/-- On the same disk two builtins can both read their input, or neither can. -/
theorem builtinInput_alike (hdisk : s.scene.host.disk = t.scene.host.disk) (file : Option Handle) :
    (∃ stdin stdin', runOn (builtinInput file input) s = (.ok stdin, s) ∧
      runOn (builtinInput file input') t = (.ok stdin', t) ∧ (input = input' → stdin = stdin')) ∨
    ∃ e, runOn (builtinInput file input) s = (.error e, s) ∧
      runOn (builtinInput file input') t = (.error e, t) := by
  cases file with
  | none =>
      refine .inl ?_
      by_cases hinput : input = input'
      · subst hinput
        cases input <;> exact ⟨_, _, rfl, rfl, fun _ => rfl⟩
      · cases input <;> cases input' <;> exact ⟨_, _, rfl, rfl, fun h => (hinput h).elim⟩
  | some handle =>
      simp only [builtinInput, runOn_bind, runOn_get, ← hdisk]
      cases s.scene.host.disk.readAll handle with
      | ok bytes => exact .inl ⟨_, _, rfl, rfl, fun _ => rfl⟩
      | error fault => exact .inr ⟨_, rfl, rfl⟩

/-- Two commands that are the same builtin go alike if the builtin does. -/
theorem runCommand_builtin_alike {Q : Ended → Ended → Session → Session → Prop}
    {E : Session → Session → Prop} {b : Builtin} {out out' err err' : Sink}
    (hseen : s.seen = t.seen) (hE : E s t) (hfound : s.table.lookup stage.name = some b)
    (hbuiltin : ∀ stdin stdin', (input = input' → stdin = stdin') →
      Joint Q E (runOn (files.settle out err <$>
          runBuiltin b stage.name stage.args stdin (files.outOr out) (files.errOr err)) s)
        (runOn (files.settle out' err' <$>
          runBuiltin b stage.name stage.args stdin' (files.outOr out') (files.errOr err')) t)) :
    Joint Q E (runOn (runCommand stage files input out err) s)
      (runOn (runCommand stage files input' out' err') t) := by
  have hfound' : t.table.lookup stage.name = some b := by
    rw [← Session.table_eq_of_seen_eq hseen]
    exact hfound
  have hdisk := Scene.disk_eq_of_seen_eq (Session.scene_seen_eq hseen)
  rcases @builtinInput_alike s t input input' hdisk files.stdin with
    ⟨stdin, stdin', hin, hin', hsame⟩ | ⟨e, hin, hin'⟩
  · rw [runOn_runCommand_of_builtin hfound hin, runOn_runCommand_of_builtin hfound' hin']
    exact hbuiltin stdin stdin' hsame
  · rw [runOn_runCommand_of_unreadable hfound hin, runOn_runCommand_of_unreadable hfound' hin']
    exact .error hE

end Commands

end LineShell
