import LineShell.Proofs.Likeness
import LineShell.Proofs.Trail

/-!
# Overlay — a run on a session of which a part was changed

The shell itself does not look at all of a session. If a part that it does not look at is changed
before a run, then the run does the same, and the change is still there when it is over. What
remains to be asked is whether the commands and the substitutions that the run comes by do not look
at that part either.

* `Tracks` — a computation on the changed state does what another does on the state itself;
* `Overlay` — a change of sessions that the shell does not look at;
* `expandStage_tracks`, `openAll_tracks` — expansion and opening;
* `Visit.tracks` — one stage;
* `runStages_tracks`, `runWith_tracks` — the stages of a pipeline, and the pipeline;
* `nest_tracks`, `runCommand_tracks` — a substitution, and a command.
-/

namespace LineShell

/-! ## Two computations -/

section Tracks

variable {ε σ α β : Type} {g : σ → σ} {x y : ExceptT ε (StateM σ) α}
  {f k : α → ExceptT ε (StateM σ) β} {s : σ}

/-- On the changed state `y` does what `x` does on the state itself, and leaves the change where it
is. -/
def Tracks (g : σ → σ) (x y : ExceptT ε (StateM σ) α) (s : σ) : Prop :=
  runOn y (g s) = ((runOn x s).1, g (runOn x s).2)

namespace Tracks

theorem pure (a : α) : Tracks g (Pure.pure a : ExceptT ε (StateM σ) α) (Pure.pure a) s := rfl

theorem bind (hx : Tracks g x y s)
    (hf : ∀ a t, runOn x s = (.ok a, t) → Tracks g (f a) (k a) t) :
    Tracks g (x >>= f) (y >>= k) s := by
  unfold Tracks at hx ⊢
  rcases hr : runOn x s with ⟨e | a, t⟩ <;> rw [hr] at hx
  · rw [runOn_bind_of_error hr, runOn_bind_of_error hx]
  · rw [runOn_bind_of_ok hr, runOn_bind_of_ok hx]
    exact hf a t hr

theorem map (hx : Tracks g x y s) (h : α → β) : Tracks g (h <$> x) (h <$> y) s := by
  unfold Tracks at hx ⊢
  rw [runOn_map, runOn_map, hx]

/-- A computation may look at the state if what it does next is the same. -/
theorem get_bind {f : σ → ExceptT ε (StateM σ) β} {k : σ → ExceptT ε (StateM σ) β}
    (h : Tracks g (f s) (k (g s)) s) : Tracks g (get >>= f) (get >>= k) s := by
  unfold Tracks at h ⊢
  rw [runOn_bind_of_ok (runOn_get s), runOn_bind_of_ok (runOn_get (g s))]
  exact h

theorem modify {m : σ → σ} (h : m (g s) = g (m s)) :
    Tracks g (modify m : ExceptT ε (StateM σ) PUnit) (modify m) s := by
  unfold Tracks
  rw [runOn_modify, runOn_modify, h]

end Tracks

end Tracks

/-! ## Changes that the shell does not look at -/

/-- A change of sessions that the shell does not look at: what it reads is as it was, and what it
changes can be changed before or after. -/
structure Overlay (g : Session → Session) : Prop where
  env (s : Session) : (g s).scene.env = s.scene.env
  cwd (s : Session) : (g s).scene.cwd = s.scene.cwd
  disk (s : Session) : (g s).scene.host.disk = s.scene.host.disk
  table (s : Session) : (g s).table = s.table
  policy (s : Session) : (g s).policy = s.policy
  flag (s : Session) : (g s).expansionFailed = s.expansionFailed
  noting (s : Session) (event : Log.Event) : (g s).noting event = g (s.noting event)
  diskSet (s : Session) (disk : Disk) :
    (g s).withHost { (g s).scene.host with disk } = g (s.withHost { s.scene.host with disk })
  flagSet (s : Session) (flag : Bool) :
    { g s with expansionFailed := flag } = g { s with expansionFailed := flag }
  enter (s : Session) : (g s).enter = g s.enter
  leave (s : Session) : (g s).leave = g s.leave
  write (sink : Sink) (bs : Bytes) (s : Session) :
    Tracks g (Exec.write sink bs) (Exec.write sink bs) s

section Steps

variable {g : Session → Session} (hg : Overlay g) {s : Session} {sub sub' : Substitution}
  {wiring : Wiring} {err : Sink} {word : Word}
include hg

theorem note_tracks (event : Log.Event) : Tracks g (Exec.note event) (Exec.note event) s :=
  .modify (hg.noting s event)

theorem report_tracks (text : String) : Tracks g (Exec.report err text) (Exec.report err text) s :=
  hg.write err _ s

theorem passOn_tracks (text : String) : Tracks g (passOn err text) (passOn err text) s := by
  unfold passOn
  split
  · exact .pure _
  · exact hg.write _ _ _

/-! ## Expansion -/

omit hg in
/-- Wherever the expansion of `word` comes to a substitution, the two ways to substitute go together
from there. -/
def SubstitutesAlong (g : Session → Session) (sub sub' : Substitution) (wiring : Wiring)
    (word : Word) (err : Sink) (s : Session) : Prop :=
  ∀ front q back text a t, word = front ++ .substitution q :: back →
    runOn (expandWord sub wiring err front) s = (.ok (text, a), t) →
    Tracks g (sub q wiring a) (sub' q wiring a) t

omit hg in
theorem SubstitutesAlong.left {v w : Word} (h : SubstitutesAlong g sub sub' wiring (v ++ w) err s) :
    SubstitutesAlong g sub sub' wiring v err s := by
  intro front q back text a t hword
  exact h front q (back ++ w) text a t (by rw [hword, List.append_assoc, List.cons_append])

omit hg in
theorem SubstitutesAlong.right {v w : Word} {text : String} {a : Sink} {t : Session}
    (h : SubstitutesAlong g sub sub' wiring (v ++ w) err s)
    (hv : runOn (expandWord sub wiring err v) s = (.ok (text, a), t)) :
    SubstitutesAlong g sub sub' wiring w a t := by
  intro front q back text' a' t' hword hfront
  refine h (v ++ front) q back (text ++ text') a' t' (by rw [hword, List.append_assoc]) ?_
  rw [expandWord_append, runOn_bind_of_ok hv, runOn_bind_of_ok hfront]
  rfl

/-- A part tracks if its substitution does. -/
theorem expandPart_tracks {part : Part} (hsub : SubstitutesAlong g sub sub' wiring [part] err s) :
    Tracks g (expandPart sub wiring err part) (expandPart sub' wiring err part) s := by
  cases part with
  | text text => exact .pure _
  | var name =>
      apply Tracks.get_bind
      rw [hg.env, hg.policy]
      exact .bind (note_tracks hg _) fun _ _ _ => .pure _
  | substitution q => exact hsub [] q [] "" err s rfl rfl

/-- A word tracks if its substitutions do. -/
theorem expandWord_tracks (hsub : SubstitutesAlong g sub sub' wiring word err s) :
    Tracks g (expandWord sub wiring err word) (expandWord sub' wiring err word) s := by
  induction word generalizing err s with
  | nil => exact .pure _
  | cons part rest ih =>
      have hsub' : SubstitutesAlong g sub sub' wiring ([part] ++ rest) err s := hsub
      refine .bind (expandPart_tracks hg hsub'.left) fun first t hfirst => ?_
      have hword : runOn (expandWord sub wiring err [part]) s =
        (.ok (first.1 ++ "", first.2), t) := by
        rw [expandWord, runOn_bind_of_ok hfirst]
        rfl
      exact .bind (ih (hsub'.right hword)) fun _ _ _ => .pure _

/-- Words track if their substitutions do. -/
theorem expandWords_tracks {ws : List Word}
    (hsub : SubstitutesAlong g sub sub' wiring ws.flatten err s) :
    Tracks g (expandWords sub wiring err ws) (expandWords sub' wiring err ws) s := by
  induction ws generalizing err s with
  | nil => exact .pure _
  | cons w rest ih =>
      rw [List.flatten_cons] at hsub
      refine .bind (expandWord_tracks hg hsub.left) fun first t hfirst => ?_
      exact .bind (ih (hsub.right hfirst)) fun _ _ _ => .pure _

/-- Targets track if their substitutions do. -/
theorem expandTargets_tracks {rs : List (Redirection Word)}
    (hsub : SubstitutesAlong g sub sub' wiring (rs.map Redirection.target).flatten err s) :
    Tracks g (expandTargets sub wiring err rs) (expandTargets sub' wiring err rs) s := by
  induction rs generalizing err s with
  | nil => exact .pure _
  | cons r rest ih =>
      rw [List.map_cons, List.flatten_cons] at hsub
      refine .bind (expandWord_tracks hg hsub.left) fun first t hfirst => ?_
      exact .bind (ih (hsub.right hfirst)) fun _ _ _ => .pure _

/-- A stage tracks if its substitutions do. -/
theorem expandStage_tracks {c : Command} (hsub : SubstitutesAlong g sub sub' wiring c.parts err s) :
    Tracks g (expandStage sub wiring err c) (expandStage sub' wiring err c) s := by
  rw [Stage.parts, List.append_assoc] at hsub
  refine .bind (expandWord_tracks hg hsub.left) fun name t hname => ?_
  have hrest := hsub.right hname
  refine .bind (expandWords_tracks hg hrest.left) fun args u hargs => ?_
  -- The words of the arguments, taken as one word, end where the list of them ends.
  rcases exists_of_snd_eq (snd_expandWords name.2 c.args) hargs with ⟨text, hword⟩
  exact .bind (expandTargets_tracks hg (hrest.right hword)) fun _ _ _ => .pure _

/-! ## Opening -/

/-- Opening a file tracks, as only the disk is read. -/
theorem openOne_tracks (files : StageFiles) (r : Redirection String) :
    Tracks g (openOne files r) (openOne files r) s := by
  apply Tracks.get_bind
  rw [hg.cwd, hg.disk]
  dsimp only
  cases s.scene.host.disk.openFor r.role r.append (Path.resolve s.scene.cwd r.target) with
  | error fault => exact .pure _
  | ok opened =>
      rcases opened with ⟨disk, handle⟩
      refine .bind (x := set _) (y := set _) ?_ fun _ _ _ => ?_
      · unfold Tracks
        rw [runOn_set, runOn_set, hg.diskSet]
      · refine .bind (note_tracks hg _) fun _ _ _ => ?_
        cases r.role with
        | stdin => exact .pure _
        | stdout => exact .pure _
        | stderr => exact .pure _
        | descriptor digits => exact .bind (note_tracks hg _) fun _ _ _ => .pure _

/-- Opening files tracks one after the other. -/
theorem openAll_tracks (files : StageFiles) (rs : List (Redirection String)) :
    Tracks g (openAll files rs) (openAll files rs) s := by
  induction rs generalizing files s with
  | nil => exact .pure _
  | cons r rest ih =>
      refine .bind (openOne_tracks hg files r) fun opened t _ => ?_
      cases opened with
      | error failure => exact .pure _
      | ok files => exact ih files

/-! ## Stages -/

/-- A stage goes the same way if its substitutions do, and its command once it is ready to run. -/
theorem Visit.tracks {v : Visit}
    (hsub : ∀ q a t, v.Enters sub wiring q a t → Tracks g (sub q wiring a) (sub' q wiring a) t)
    (hcommand : ∀ stage files a t, v.Ready sub wiring stage files a t → stage.name.isEmpty = false →
      Tracks g (runCommand stage files v.input v.out a) (runCommand stage files v.input v.out a)
        (t.starting stage)) :
    Tracks g (runStage sub wiring v.command v.input v.out v.err)
      (runStage sub' wiring v.command v.input v.out v.err) v.before := by
  have hparts : SubstitutesAlong g sub sub' wiring v.command.parts v.err v.before :=
    fun front q back text a t hword hfront => hsub q a t ⟨front, back, text, hword, hfront⟩
  refine .bind (expandStage_tracks hg hparts) ?_
  -- From here the four ways that a stage can go are taken in turn; only the last one runs its
  -- command.
  rintro ⟨stage, a⟩ t hexp
  apply Tracks.get_bind
  rw [hg.flag]
  dsimp only
  cases hflag : t.expansionFailed with
  | true =>
      refine .bind (.modify ?_) fun _ _ _ => .pure _
      exact hg.flagSet t false
  | false =>
      refine .bind (openAll_tracks hg {} stage.redirections) fun opened u hopen => ?_
      cases opened with
      | error failure => exact .bind (report_tracks hg _) fun _ _ _ => .pure _
      | ok files =>
          dsimp only
          cases hname : stage.name.isEmpty with
          | true => exact .pure _
          | false =>
              refine .bind (note_tracks hg _) fun _ _ hnoted => ?_
              cases hnoted
              exact hcommand stage files a u ⟨t, hexp, hflag, hopen⟩ hname

end Steps

/-! ## Pipelines -/

/-- The stage goes the same way in the changed session. -/
def Visit.Tracks (g : Session → Session) (sub sub' : Substitution) (wiring : Wiring) (v : Visit) :
    Prop :=
  LineShell.Tracks g (runStage sub wiring v.command v.input v.out v.err)
    (runStage sub' wiring v.command v.input v.out v.err) v.before

section Pipelines

variable {g : Session → Session} (hg : Overlay g) {sub sub' : Substitution} {wiring : Wiring}
  {p : Pipeline} {s : Session}
include hg

/-- The stages of a pipeline go the same way if each one does that is run. -/
theorem runStages_tracks {total i : Nat} {input : Input} {err : Sink}
    (h : ∀ v ∈ visitsFrom sub wiring total i input err p s, v.Tracks g sub sub' wiring) :
    Tracks g (runStages sub wiring total i input err p) (runStages sub' wiring total i input err p)
      s := by
  induction p generalizing i input err s with
  | nil => exact .pure _
  | cons command rest ih =>
      rw [visitsFrom] at h
      rw [runStages, runStages, outputSink_eq]
      refine .bind (note_tracks hg _) fun _ t ht => ?_
      cases ht
      -- The first stage tracks, so both runs are at corresponding states behind it.
      have hfirst := h _ List.mem_cons_self
      simp only [Visit.Tracks, Visit.of] at hfirst
      refine .bind hfirst fun ended t hended => ?_
      refine .bind (note_tracks hg _) fun _ u hu => ?_
      cases hu
      rcases ended with ⟨code | code | code, out, err'⟩
      · dsimp only
        split
        · exact .pure _
        · -- The first stage passed, so the visits behind it are those of the other stages.
          apply ih
          intro v hv
          apply h v (List.mem_cons_of_mem _ ?_)
          have hresult : (Visit.of sub wiring command input (wiring.outputSink rest.length) err
              (s.noting (.stageStarting i total))).result = .ok ⟨.finished code, out, err'⟩ :=
            congrArg Prod.fst hended
          have hafter : (Visit.of sub wiring command input (wiring.outputSink rest.length) err
              (s.noting (.stageStarting i total))).after = t := congrArg Prod.snd hended
          rw [hresult, hafter]
          exact hv
      · exact .pure _
      · exact .pure _

/-- A run tracks if each of its stages does. -/
theorem runWith_tracks (h : ∀ v ∈ visits sub wiring p s, v.Tracks g sub sub' wiring) :
    Tracks g (runWith sub p wiring) (runWith sub' p wiring) s := by
  rw [runWith_eq_map, runWith_eq_map]
  exact (runStages_tracks hg h).map _

/-! ## Substitutions -/

/-- A substitution tracks if the run inside it does. -/
theorem nest_tracks {run run' : Pipeline → Wiring → Exec Result} {err : Sink}
    (h : Tracks g (run p wiring.nested) (run' p wiring.nested) s.enter) :
    Tracks g (nest run p wiring err) (nest run' p wiring err) s := by
  refine .bind (.modify (hg.enter s)) fun _ t ht => ?_
  cases ht
  -- The depth is taken back whether the pipeline has a result or an error, so the error is raised
  -- only behind that.
  refine .bind (x := Exec.observe _) (y := Exec.observe _) ?_ fun r t hr => ?_
  · unfold Tracks at h ⊢
    rw [runOn_observe, runOn_observe, h]
  · refine .bind (.modify (hg.leave t)) fun _ _ _ => ?_
    cases r with
    | error e => exact rfl
    | ok result => exact .bind (passOn_tracks hg _) fun _ _ _ => .pure _

/-! ## Commands -/

/-- A builtin reads the same. -/
theorem builtinInput_tracks (file : Option Handle) (input : Input) :
    Tracks g (builtinInput file input) (builtinInput file input) s := by
  unfold builtinInput
  split
  · apply Tracks.get_bind
    rw [hg.disk]
    split
    · exact .pure _
    · exact rfl
  · exact .pure _
  · exact .pure _

/-- A builtin goes the same way if it does at its desk, where only the scene can be changed. -/
theorem runBuiltin_tracks {f : Scene → Scene} {b : Builtin} {args : List String}
    {stdin : Option Bytes} {out err : Sink} (hscene : (g s).scene = f s.scene)
    (hafter : ∀ x, (g s).withScene (f x) = g (s.withScene x))
    (hdesk : Tracks (fun d => { d with scene := f d.scene }) (b args stdin) (b args stdin)
      ⟨s.scene, out.handedOut, err.handedOut⟩) (name : String) :
    Tracks g (runBuiltin b name args stdin out err) (runBuiltin b name args stdin out err) s := by
  unfold Tracks at hdesk ⊢
  rw [runOn_runBuiltin, runOn_runBuiltin, hscene, hdesk]
  rcases runOn (b args stdin) ⟨s.scene, out.handedOut, err.handedOut⟩ with ⟨e | (n | n), desk⟩
  · -- The error that the builtin ended with is reported in the session that it left.
    let say : Exec Ended := do
      let err ← Exec.report (err.receive desk.err) s!"{name}: {e.message}"
      return ⟨.finished 1, out.receive desk.out, err⟩
    have hsay : Tracks g say say (s.withScene desk.scene) :=
      .bind (report_tracks hg _) fun _ _ _ => .pure _
    dsimp only
    rw [hafter]
    exact hsay
  · dsimp only
    rw [hafter]
  · dsimp only
    rw [hafter]

/-- A command goes the same way if the builtin or the program does that it runs. -/
theorem runCommand_tracks {stage : Stage String} {files : StageFiles} {input : Input}
    {out err : Sink} (hbuiltin : ∀ b stdin, s.table.lookup stage.name = some b →
      Tracks g (runBuiltin b stage.name stage.args stdin (files.outOr out) (files.errOr err))
        (runBuiltin b stage.name stage.args stdin (files.outOr out) (files.errOr err)) s)
    (hprogram : s.table.lookup stage.name = none →
      Tracks g (runProgram stage.name stage.args (programInput files.stdin input) (files.outOr out)
          (files.errOr err))
        (runProgram stage.name stage.args (programInput files.stdin input) (files.outOr out)
          (files.errOr err)) s) :
    Tracks g (runCommand stage files input out err) (runCommand stage files input out err) s := by
  -- Both sessions have the same table, so both run a builtin or both run a program.
  have htable := hg.table s
  cases hlookup : s.table.lookup stage.name with
  | none =>
      have hlookup' : (g s).table.lookup stage.name = none := by rw [htable, hlookup]
      have htracks := (hprogram hlookup).map (files.settle out err)
      unfold Tracks at htracks ⊢
      rw [runOn_runCommand_of_absent hlookup, runOn_runCommand_of_absent hlookup', htracks]
  | some b =>
      have hlookup' : (g s).table.lookup stage.name = some b := by rw [htable, hlookup]
      have hread := builtinInput_tracks hg files.stdin input (s := s)
      unfold Tracks at hread
      rcases builtinInput_cases files.stdin input s with ⟨stdin, hin⟩ | ⟨_, _, -, -, hin⟩ <;>
        rw [hin] at hread
      · have htracks := (hbuiltin b stdin hlookup).map (files.settle out err)
        unfold Tracks at htracks ⊢
        rw [runOn_runCommand_of_builtin hlookup hin, runOn_runCommand_of_builtin hlookup' hread,
          htracks]
      · unfold Tracks
        rw [runOn_runCommand_of_unreadable hlookup hin,
          runOn_runCommand_of_unreadable hlookup' hread]

end Pipelines
end LineShell
