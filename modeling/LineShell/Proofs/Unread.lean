import LineShell.Proofs.Coupling
import LineShell.Proofs.Custody
import LineShell.Proofs.Overlay

/-!
# Unread — what is left on the input of the process

The builtins that every session starts with do not look at the input of the process, and the shell
itself does not either. So a line that runs nothing else does the same whatever is left there, and
leaves it there.

* `Session.withInput` — a session with something else left on the input of the process;
* `Inattentive` — an action that does not look at it;
* `standard_inattentive` — the builtins that every session starts with;
* `runWithin_tracks_withInput`, `run_tracks_withInput` — pipelines and lines that run only these.
-/

namespace LineShell

/-! ## Another input -/

/-- The same surroundings, with other bytes left on the input of the process. -/
def Host.withInput (h : Host) (input : Bytes) : Host :=
  { h with stdin := input }

def Scene.withInput (x : Scene) (input : Bytes) : Scene :=
  { x with host := x.host.withInput input }

def Desk.withInput (d : Desk) (input : Bytes) : Desk :=
  { d with scene := d.scene.withInput input }

def Session.withInput (s : Session) (input : Bytes) : Session :=
  s.withScene (s.scene.withInput input)

/-- No sink is connected to the input. -/
theorem Sink.write_withInput (sink : Sink) (bs : Bytes) (h : Host) (input : Bytes) :
    sink.write bs (h.withInput input) =
      ((sink.write bs h).1, (sink.write bs h).2.1.withInput input, (sink.write bs h).2.2) := by
  cases sink with
  | stdout => rfl
  | stderr => rfl
  | buffer bytes => rfl
  | file handle =>
      have hdisk : (h.withInput input).disk = h.disk := rfl
      simp only [Sink.write, hdisk]
      rcases h.disk.write handle bs with fault | ⟨disk, handle'⟩ <;> rfl

theorem Sink.isTerminal_withInput (sink : Sink) (h : Host) (input : Bytes) :
    sink.isTerminal (h.withInput input) = sink.isTerminal h := by
  cases sink <;> rfl

/-- Another input changes nothing that a builtin can see. -/
theorem overlay_withInput (input : Bytes) : Overlay fun s => s.withInput input where
  env _ := rfl
  cwd _ := rfl
  disk _ := rfl
  table _ := rfl
  policy _ := rfl
  flag _ := rfl
  noting _ _ := rfl
  diskSet _ _ := rfl
  flagSet _ _ := rfl
  enter _ := rfl
  leave _ := rfl
  write sink bs s := by
    have hhost : (s.withInput input).scene.host = s.scene.host.withInput input := rfl
    unfold Tracks
    rw [runOn_write, runOn_write, hhost, Sink.write_withInput]
    rcases sink.write bs s.scene.host with ⟨sink', host, fault | _⟩ <;> rfl

/-! ## Actions -/

/-- The action does the same whatever is left on the input of the process. -/
def Inattentive {α : Type} (x : Action α) : Prop :=
  ∀ input d, Tracks (fun d => d.withInput input) x x d

section Actions

variable {α β : Type}

namespace Inattentive

theorem pure (a : α) : Inattentive (Pure.pure a) :=
  fun _ _ => .pure a

theorem bind {x : Action α} {f : α → Action β} (hx : Inattentive x) (hf : ∀ a, Inattentive (f a)) :
    Inattentive (x >>= f) :=
  fun input d => (hx input d).bind fun a e _ => hf a input e

theorem ite {c : Prop} [Decidable c] {x y : Action α} (hx : Inattentive x) (hy : Inattentive y) :
    Inattentive (if c then x else y) := by
  split
  · exact hx
  · exact hy

/-- An action may use what it sees of the scene, as long as it does not use the input. -/
theorem scene_bind {f : Scene → Action α} (hf : ∀ x input, f (x.withInput input) = f x)
    (h : ∀ x, Inattentive (f x)) : Inattentive (Action.scene >>= f) := by
  intro input d
  have hnext := h d.scene input d
  unfold Tracks at hnext ⊢
  have hscene : (d.withInput input).scene = d.scene.withInput input := rfl
  have hrun : ∀ d, runOn (Action.scene >>= f) d = runOn (f d.scene) d := fun d => rfl
  rw [hrun, hrun, hscene, hf]
  exact hnext

theorem print (bs : Bytes) : Inattentive (Action.print bs) := by
  intro input d
  have hhost : (d.withInput input).scene.host = d.scene.host.withInput input := rfl
  have hout : (d.withInput input).out = d.out := rfl
  apply Tracks.get_bind
  rw [hhost, hout, Sink.write_withInput]
  rcases d.out.write bs d.scene.host with ⟨out, host, fault | _⟩ <;> exact rfl

theorem report (bs : Bytes) : Inattentive (Action.report bs) := by
  intro input d
  have hhost : (d.withInput input).scene.host = d.scene.host.withInput input := rfl
  have herr : (d.withInput input).err = d.err := rfl
  apply Tracks.get_bind
  rw [hhost, herr, Sink.write_withInput]
  rcases d.err.write bs d.scene.host with ⟨err, host, fault | _⟩ <;> exact rfl

theorem complain (text : String) : Inattentive (Action.complain text) :=
  .report _

theorem note (event : Log.Event) : Inattentive (Action.note event) :=
  fun _ _ => .modify rfl

theorem setDisk (disk : Disk) : Inattentive (Action.setDisk disk) :=
  fun _ _ => .modify rfl

theorem modifyEnv (f : Environment → Environment) : Inattentive (Action.modifyEnv f) :=
  fun _ _ => .modify rfl

end Inattentive

/-! ## Builtins -/

theorem refuseOptions_inattentive (command : String) (unknown : List String) :
    Inattentive (Action.refuseOptions command unknown) :=
  .bind (.complain _) fun _ => .pure _

/-- Going through operands reads no input. -/
theorem forOperands_inattentive (act : Disk → String → Disk × Except Fault Unit)
    (message : String → Fault → String) (operands : List String) :
    Inattentive (Builtin.forOperands act message operands) := by
  induction operands with
  | nil => exact .pure _
  | cons operand rest ih =>
      apply Inattentive.scene_bind (fun _ _ => rfl)
      intro x
      apply Inattentive.bind (.setDisk _)
      intro _
      split
      · exact ih
      · exact .bind (.complain _) fun _ => .bind ih fun _ => .pure _

theorem withOptions_inattentive {command missing : String} {known : String → Bool}
    {args : List String} {run : Options → Action Completion} (h : ∀ o, Inattentive (run o)) :
    Inattentive (Builtin.withOptions command missing known args run) :=
  .ite (refuseOptions_inattentive _ _) (.ite (.bind (.complain _) fun _ => .pure _) (h _))

theorem exportAll_inattentive (args : List String) : Inattentive (Builtin.exportAll args) := by
  induction args with
  | nil => exact .pure _
  | cons arg rest ih =>
      apply Inattentive.ite
      · exact .bind (.modifyEnv _) fun _ => ih
      · exact .bind (.complain _) fun _ => .bind ih fun _ => .pure _

theorem unsetAll_inattentive (args : List String) : Inattentive (Builtin.unsetAll args) := by
  induction args with
  | nil => exact .pure _
  | cons arg rest ih =>
      apply Inattentive.ite
      · apply Inattentive.scene_bind (fun _ _ => rfl)
        intro x
        apply Inattentive.bind (.modifyEnv _)
        intro _
        exact .ite (.bind (.note _) fun _ => ih) ih
      · exact .bind (.complain _) fun _ => .bind ih fun _ => .pure _

theorem cdTo_inattentive (shown path : String) : Inattentive (Builtin.cdTo shown path) := by
  apply Inattentive.scene_bind (fun _ _ => rfl)
  intro x
  split
  · apply Inattentive.ite
    · refine .bind (.note _) fun _ => .bind (fun _ _ => ?_) fun _ => .pure _
      exact .modify rfl
    · exact .bind (.complain _) fun _ => .pure _
  · exact .bind (.complain _) fun _ => .pure _

theorem cd_inattentive (args : List String) (stdin : Option Bytes) :
    Inattentive (Builtin.cd args stdin) := by
  apply Inattentive.scene_bind (fun _ _ => rfl)
  intro x
  split
  · exact cdTo_inattentive _ _
  · exact cdTo_inattentive _ _
  · exact .bind (.complain _) fun _ => .pure _

theorem ls_inattentive (args : List String) (stdin : Option Bytes) :
    Inattentive (Builtin.ls args stdin) := by
  apply Inattentive.ite (refuseOptions_inattentive _ _)
  intro input d
  apply Tracks.get_bind
  have hterminal : (d.withInput input).out.isTerminal (d.withInput input).scene.host =
      d.out.isTerminal d.scene.host := Sink.isTerminal_withInput _ _ _
  rw [hterminal]
  refine Inattentive.bind (.print _) (fun _ => ?_) input d
  exact .ite (.pure _) (.bind (.report _) fun _ => .pure _)

theorem env_inattentive (args : List String) (stdin : Option Bytes) :
    Inattentive (Builtin.env args stdin) := by
  intro input d
  apply Tracks.get_bind
  have hterminal : (d.withInput input).out.isTerminal (d.withInput input).scene.host =
      d.out.isTerminal d.scene.host := Sink.isTerminal_withInput _ _ _
  rw [hterminal]
  exact Inattentive.bind (.print _) (fun _ => .pure _) input d

/-- The builtins that every session starts with do not look at the input of the process. -/
theorem standard_inattentive {name : String} {b : Builtin}
    (h : Builtin.standard.lookup name = some b) (args : List String) (stdin : Option Bytes) :
    Inattentive (b args stdin) := by
  rcases List.lookup_eq_some_iff.1 h with ⟨before, after, htable, -⟩
  have hmem : (name, b) ∈ Builtin.standard := by simp [htable]
  simp only [Builtin.standard, List.mem_cons, Prod.mk.injEq, List.not_mem_nil, or_false] at hmem
  -- The cases are the rows of the table, in its order.
  rcases hmem with ⟨-, rfl⟩ | ⟨-, rfl⟩ | ⟨-, rfl⟩ | ⟨-, rfl⟩ | ⟨-, rfl⟩ | ⟨-, rfl⟩ | ⟨-, rfl⟩ |
    ⟨-, rfl⟩ | ⟨-, rfl⟩ | ⟨-, rfl⟩ | ⟨-, rfl⟩ | ⟨-, rfl⟩ | ⟨-, rfl⟩
  · exact cd_inattentive args stdin
  · apply Inattentive.scene_bind (fun _ _ => rfl)
    intro x
    exact .bind (.print _) fun _ => .pure _
  · exact ls_inattentive args stdin
  · exact withOptions_inattentive fun _ => forOperands_inattentive _ _ _
  · exact withOptions_inattentive fun _ => forOperands_inattentive _ _ _
  · exact withOptions_inattentive fun _ => forOperands_inattentive _ _ _
  · exact .bind (.print _) fun _ => .pure _
  · exact exportAll_inattentive args
  · exact unsetAll_inattentive args
  · exact env_inattentive args stdin
  · exact .pure _
  · exact .pure _
  · exact .pure _

end Actions

/-! ## Lines -/

section Lines

variable {input : Bytes} {s : Session} {levels : Nat} {p : Pipeline} {wiring : Wiring}

/-- An inattentive builtin runs alike whatever the input holds. -/
theorem runBuiltin_tracks_withInput {b : Builtin} {args : List String} {stdin : Option Bytes}
    (hb : Inattentive (b args stdin)) (name : String) (out err : Sink) :
    Tracks (fun s => s.withInput input) (runBuiltin b name args stdin out err)
      (runBuiltin b name args stdin out err) s := by
  apply @runBuiltin_tracks _ (overlay_withInput input) s fun x => x.withInput input
  · rfl
  · intro x
    rfl
  · exact hb input _

/-- A refusal reads no input. -/
theorem refuse_tracks_withInput (q : Pipeline) (wiring : Wiring) (err : Sink) :
    Tracks (fun s => s.withInput input) (refuse q wiring err) (refuse q wiring err) s := by
  apply Tracks.get_bind
  apply Tracks.bind (report_tracks (overlay_withInput input) _)
  intro err' t _
  exact .bind (.modify rfl) fun _ _ _ => .pure _

/-- A stage that runs a builtin, or nothing, does not look at the input of the process if its
substitutions do not. -/
theorem Visit.RunsStandard.tracks {sub : Substitution} {v : Visit} (h : v.RunsStandard sub wiring)
    (hsub : ∀ q a t, v.Enters sub wiring q a t →
      LineShell.Tracks (fun s => s.withInput input) (sub q wiring a) (sub q wiring a) t) :
    v.Tracks (fun s => s.withInput input) sub sub wiring := by
  have hg := overlay_withInput input
  apply Visit.tracks hg hsub
  intro stage files a t hready hnamed
  rcases h stage files a t hready hnamed with ⟨b, hfound, hstandard⟩
  apply runCommand_tracks hg
  · intro b' stdin hfound'
    have hsame : b' = b := Option.some.inj (hfound'.symm.trans hfound)
    rw [hsame]
    exact runBuiltin_tracks_withInput (standard_inattentive hstandard _ _) _ _ _
  · intro habsent
    have hnone : t.table.lookup stage.name = none := habsent
    rw [hfound] at hnone
    cases hnone

/-- A run of which all commands are builtins does not look at the input of the process. -/
theorem runWithin_tracks_withInput
    (h : ∀ rest w v, Occurs levels p wiring s rest w v →
    v.RunsStandard (substitutionWithin rest) w) :
    Tracks (fun s => s.withInput input) (runWithin levels p wiring) (runWithin levels p wiring)
      s := by
  have hg := overlay_withInput input
  induction levels generalizing p wiring s with
  | zero =>
      rw [runWithin_eq_runWith]
      apply runWith_tracks hg
      intro v hv
      apply (h _ _ _ (.here hv)).tracks
      intro q a t _
      exact refuse_tracks_withInput q wiring a
  | succ levels ih =>
      rw [runWithin_eq_runWith]
      apply runWith_tracks hg
      intro v hv
      apply (h _ _ _ (.here hv)).tracks
      intro q a t hentered
      apply nest_tracks hg
      apply ih
      -- The stages of a substitution belong to the run around it.
      intro rest w v' hv'
      exact h rest w v' (.inside hv hentered hv')

theorem Session.recording_withInput (s : Session) (line : String) :
    (s.withInput input).recording line = (s.recording line).withInput input := rfl

/-- A line that only runs builtins runs alike whatever the input holds. -/
theorem run_tracks_withInput {line : String}
    (h : ∀ rest w v, s.Reaches line wiring rest w v → v.RunsStandard (substitutionWithin rest) w) :
    Tracks (fun s => s.withInput input) (Session.run line wiring) (Session.run line wiring) s := by
  unfold Tracks
  cases hparse : Pipeline.parse line with
  | error e =>
      rw [runOn_run_of_malformed hparse, runOn_run_of_malformed hparse, s.recording_withInput]
  | ok p =>
      rw [runOn_run_eq_runWithin hparse, runOn_run_eq_runWithin hparse, s.recording_withInput]
      apply runWithin_tracks_withInput
      intro rest w v hv
      exact h rest w v ⟨p, hparse, hv⟩

end Lines

end LineShell
