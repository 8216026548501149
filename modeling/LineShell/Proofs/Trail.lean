import LineShell.Proofs.Visits

/-!
# Trail — what a run makes of the variables and the working directory

Of all that a line does, only builtins touch the variables and the working directory of a session.
So what holds between the two before and after each builtin that is run, at any level, holds between
them before and after the whole run, whatever it ends in.

* `Session.stance` — the variables and the working directory;
* `Visit.Performs` — the builtin that a stage runs, at its desk;
* `Leads` — a computation takes the stance to a related one;
* `Visit.Runs.leads` — what one stage does to the stance;
* `runWithin_leads` — what a run does to it;
* `Occurs.leads_ready` — what was done to it by the time a stage, at any level, runs its command.
-/

namespace LineShell

/-! ## The stance -/

/-- The variables and the working directory. -/
abbrev Stance := Environment × String

def Scene.stance (s : Scene) : Stance :=
  (s.env, s.cwd)

def Session.stance (s : Session) : Stance :=
  s.scene.stance

theorem note_keeps_stance (event : Log.Event) : Keeps Session.stance (Exec.note event) :=
  fun _ => rfl

theorem write_keeps_stance (sink : Sink) (bs : Bytes) :
    Keeps Session.stance (Exec.write sink bs) := by
  intro s
  rw [runOn_write]
  split <;> rfl

theorem report_keeps_stance (sink : Sink) (text : String) :
    Keeps Session.stance (Exec.report sink text) :=
  write_keeps_stance sink _

theorem passOn_keeps_stance (err : Sink) (text : String) :
    Keeps Session.stance (passOn err text) := by
  unfold passOn
  split
  · exact .pure _
  · exact write_keeps_stance _ _

theorem refuse_keeps_stance (p : Pipeline) (wiring : Wiring) (err : Sink) :
    Keeps Session.stance (refuse p wiring err) :=
  .bind .get fun _ => .bind (report_keeps_stance _ _) fun _ => .bind (fun _ => rfl) fun _ => .pure _

theorem openOne_keeps_stance (files : StageFiles) (r : Redirection String) :
    Keeps Session.stance (openOne files r) := by
  intro s
  simp only [openOne, runOn_bind, runOn_get]
  cases s.scene.host.disk.openFor r.role r.append (Path.resolve s.scene.cwd r.target) with
  | error fault => rfl
  | ok opened =>
      rcases opened with ⟨disk, handle⟩
      simp only [runOn_bind, runOn_set, runOn_note]
      cases r.role <;> rfl

/-- Opening files keeps variables and directory. -/
theorem openAll_keeps_stance (files : StageFiles) (rs : List (Redirection String)) :
    Keeps Session.stance (openAll files rs) := by
  induction rs generalizing files with
  | nil => exact .pure _
  | cons r rs ih =>
      rw [openAll]
      refine .bind (openOne_keeps_stance files r) ?_
      intro opened
      cases opened with
      | ok files => exact ih files
      | error failure => exact .pure _

theorem noteUnread_keeps_stance (input : Feed) (unread : Option Int) :
    Keeps Session.stance (noteUnread input unread) := by
  unfold noteUnread
  split
  · exact note_keeps_stance _
  · exact .pure _

theorem runProgram_keeps_stance (name : String) (args : List String) (input : Feed)
    (out err : Sink) :
    Keeps Session.stance (runProgram name args input out err) := by
  refine .bind .get fun s => .bind (note_keeps_stance _) fun _ => .bind (fun _ => rfl) fun _ => ?_
  split
  · exact .bind (note_keeps_stance _) fun _ => .bind (report_keeps_stance _ _) fun _ => .pure _
  · refine .bind (fun _ => rfl) fun _ => .bind (noteUnread_keeps_stance _ _) fun _ => ?_
    split
    · exact .bind (note_keeps_stance _) fun _ => .bind (report_keeps_stance _ _) fun _ => .pure _
    · exact .bind (note_keeps_stance _) fun _ => .pure _

/-! ## Commands -/

section Commands

variable {sub : Substitution} {wiring : Wiring} {v : Visit} {stage : Stage String}
  {files : StageFiles} {input : Input} {out err : Sink} {s t : Session}

/-- The desk at which a builtin is put that writes to the given sinks. -/
def Session.desk (s : Session) (out err : Sink) : Desk :=
  ⟨s.scene, out.handedOut, err.handedOut⟩

/-- A name in the table is run as a builtin, once it has its input. -/
theorem runOn_runCommand_of_builtin {b : Builtin} {stdin : Option Bytes}
    (hb : s.table.lookup stage.name = some b)
    (hin : runOn (builtinInput files.stdin input) s = (.ok stdin, s)) :
    runOn (runCommand stage files input out err) s =
      runOn (files.settle out err <$>
        runBuiltin b stage.name stage.args stdin (files.outOr out) (files.errOr err)) s := by
  rw [runCommand, runOn_bind_of_ok (runOn_get s), hb, map_eq_pure_bind]
  exact runOn_bind_of_ok hin

/-- If it cannot have its input, it is not run. -/
theorem runOn_runCommand_of_unreadable {b : Builtin} {e : Error}
    (hb : s.table.lookup stage.name = some b)
    (hin : runOn (builtinInput files.stdin input) s = (.error e, s)) :
    runOn (runCommand stage files input out err) s = (.error e, s) := by
  rw [runCommand, runOn_bind_of_ok (runOn_get s), hb]
  exact runOn_bind_of_error hin

/-- Any other name is run as a program. -/
theorem runOn_runCommand_of_absent (hb : s.table.lookup stage.name = none) :
    runOn (runCommand stage files input out err) s =
      runOn (files.settle out err <$>
        runProgram stage.name stage.args (programInput files.stdin input) (files.outOr out)
          (files.errOr err)) s := by
  rw [runCommand, runOn_bind_of_ok (runOn_get s), hb, map_eq_pure_bind]
  rfl

/-- A builtin leaves the scene as it is at its desk, but for what a report about it does to the
host. -/
theorem runBuiltin_stance (b : Builtin) (name : String) (args : List String) (stdin : Option Bytes)
    (out err : Sink) (s : Session) :
    (runOn (runBuiltin b name args stdin out err) s).2.stance =
      (runOn (b args stdin) (s.desk out err)).2.scene.stance := by
  rw [runOn_runBuiltin, Session.desk]
  rcases runOn (b args stdin) ⟨s.scene, out.handedOut, err.handedOut⟩ with ⟨e | (n | n), desk⟩
  · exact Keeps.bind (report_keeps_stance _ _) (fun _ => .pure _) (s.withScene desk.scene)
  · rfl
  · rfl

/-- The stage is ready and runs the builtin `b` with the arguments and the input, at the desk
`desk`. -/
structure Visit.Performs (sub : Substitution) (wiring : Wiring) (v : Visit) (stage : Stage String)
    (b : Builtin) (stdin : Option Bytes) (files : StageFiles) (err : Sink) (t : Session) :
    Prop where
  ready : v.Ready sub wiring stage files err t
  named : stage.name.isEmpty = false
  found : t.table.lookup stage.name = some b
  fed : runOn (builtinInput files.stdin v.input) (t.starting stage) = (.ok stdin, t.starting stage)

/-- Where a stage puts the builtin that it runs. -/
def Visit.desk (v : Visit) (stage : Stage String) (files : StageFiles) (err : Sink) (t : Session) :
    Desk :=
  (t.starting stage).desk (files.outOr v.out) (files.errOr err)

/-- A stage that runs a builtin leaves the stance that the builtin leaves. -/
theorem Visit.Performs.stance {b : Builtin} {stdin : Option Bytes}
    (h : v.Performs sub wiring stage b stdin files err t) (hrun : v.Runs sub wiring) :
    v.after.stance = (runOn (b stage.args stdin) (v.desk stage files err t)).2.scene.stance := by
  have hcommand := hrun.command h.ready h.named
  rw [runOn_runCommand_of_builtin (s := t.starting stage) h.found h.fed, runOn_map] at hcommand
  have hafter : (runOn (runBuiltin b stage.name stage.args stdin (files.outOr v.out)
    (files.errOr err))
      (t.starting stage)).2 = v.after := congrArg Prod.snd hcommand
  rw [← hafter, runBuiltin_stance]
  rfl

/-- A stage whose builtin answers meets the fate of that answer. -/
theorem Visit.Performs.meets {b : Builtin} {stdin : Option Bytes} {answer : Completion}
    {desk : Desk} (h : v.Performs sub wiring stage b stdin files err t) (hrun : v.Runs sub wiring)
    (hanswer : runOn (b stage.args stdin) (v.desk stage files err t) = (.ok answer, desk)) :
    ∃ ended, v.result = .ok ended ∧
      v.Meets sub wiring (.builtin stage.name stage.args stdin (.ok answer) desk.out) ended := by
  have hcommand := hrun.command h.ready h.named
  rw [runOn_runCommand_of_builtin (s := t.starting stage) h.found h.fed, runOn_map,
    runOn_runBuiltin] at hcommand
  rw [Visit.desk, Session.desk] at hanswer
  rw [hanswer] at hcommand
  have hends := @Commanded.builtin stage files v.input (files.outOr v.out) (files.errOr err)
    (t.starting stage) b stdin _ desk h.found h.fed hanswer
  cases answer with
  | code n => exact ⟨_, (congrArg Prod.fst hcommand).symm, .command h.ready h.named hends rfl⟩
  | exit n => exact ⟨_, (congrArg Prod.fst hcommand).symm, .command h.ready h.named hends rfl⟩

/-- The fate of a builtin is met by running it. -/
theorem Visit.Meets.performs {name : String} {args : List String} {stdin : Option Bytes}
    {answer : Except Error Completion} {written : Sink} {ended : Ended}
    (h : v.Meets sub wiring (.builtin name args stdin answer written) ended) :
    ∃ stage b files err t desk, v.Performs sub wiring stage b stdin files err t ∧
      stage.name = name ∧ stage.args = args ∧
      runOn (b stage.args stdin) (v.desk stage files err t) = (answer, desk) := by
  cases h with
  | @command stage files err _ _ _ t _ ready named ends _ =>
      cases ends with
      | @builtin b _ _ desk found fed answered =>
          exact ⟨stage, b, files, err, t, desk, ⟨ready, named, found, fed⟩, rfl, rfl, answered⟩

end Commands

/-! ## Trails -/

/-- Whatever comes of the computation, the stance before it and the stance after it are related. -/
def Leads {α : Type} (T : Stance → Stance → Prop) (x : Exec α) (s : Session) : Prop :=
  T s.stance (runOn x s).2.stance

section Trail

variable {T : Stance → Stance → Prop} (hrefl : ∀ x, T x x) (htrans : ∀ x y z, T x y → T y z → T x z)
  {sub : Substitution} {wiring : Wiring} {s t : Session} {err : Sink} {v : Visit}

include htrans in
theorem Leads.bind {α β : Type} {x : Exec α} {f : α → Exec β} (hx : Leads T x s)
    (hf : ∀ a t, runOn x s = (.ok a, t) → Leads T (f a) t) : Leads T (x >>= f) s := by
  unfold Leads at hx ⊢
  rw [runOn_bind]
  rcases hr : runOn x s with ⟨e | a, t⟩ <;> rw [hr] at hx
  · exact hx
  · exact htrans _ _ _ hx (hf a t hr)

include hrefl in
/-- What keeps the stance leads nowhere. -/
theorem Keeps.leads {α : Type} {x : Exec α} (h : Keeps Session.stance x) : Leads T x s := by
  unfold Leads
  rw [h s]
  exact hrefl _

/-- What happens on the way when a stage is expanded is what happens for its parts. -/
theorem expandStage_snd (c : Command) :
    (runOn (expandStage sub wiring err c) s).2 =
    (runOn (expandWord sub wiring err c.parts) s).2 := by
  have hsame := congrArg (fun x => (runOn x s).2) (@snd_expandStage sub wiring err c)
  simpa only [runOn_map] using hsame

include hrefl

/-- A command leads where its builtin leads. -/
theorem Visit.Ready.leads {stage : Stage String} {files : StageFiles} (hrun : v.Runs sub wiring)
    (ready : v.Ready sub wiring stage files err t) (named : stage.name.isEmpty = false)
    (hbuiltin : ∀ b stdin, v.Performs sub wiring stage b stdin files err t →
    T t.stance v.after.stance) :
    Leads T (runCommand stage files v.input v.out err) (t.starting stage) := by
  cases hb : t.table.lookup stage.name with
  | none =>
      rw [Leads, runOn_runCommand_of_absent (s := t.starting stage) hb, runOn_map]
      exact Keeps.leads hrefl (runProgram_keeps_stance _ _ _ _ _)
  | some b =>
      rcases builtinInput_cases files.stdin v.input (t.starting stage) with
        ⟨stdin, hin⟩ | ⟨handle, fault, -, -, hin⟩
      · rw [Leads, hrun.command ready named]
        exact hbuiltin b stdin ⟨ready, named, hb, hin⟩
      · rw [Leads, runOn_runCommand_of_unreadable (s := t.starting stage) hb hin]
        exact hrefl _

include htrans

/-- An expansion leads where its substitutions lead. -/
theorem expandWord_leads {w : Word}
    (hsub : ∀ front q back text err' t, w = front ++ .substitution q :: back →
      runOn (expandWord sub wiring err front) s = (.ok (text, err'), t) →
      Leads T (sub q wiring err') t) :
    Leads T (expandWord sub wiring err w) s := by
  induction w generalizing err s with
  | nil => exact hrefl _
  | cons part rest ih =>
      refine .bind htrans ?_ fun first t hfirst => .bind htrans ?_ fun _ _ _ => hrefl _
      · cases part with
        | text _ => exact hrefl _
        | var _ => exact hrefl _
        | substitution q => exact hsub [] q rest "" err s rfl rfl
      · refine ih fun front q back text err' u hrest hfront => ?_
        refine hsub (part :: front) q back (first.1 ++ text) err' u (by rw [hrest]; rfl) ?_
        rw [expandWord, runOn_bind_of_ok hfirst, runOn_bind_of_ok hfront]
        rfl

/-- Expanding a stage leads only where its substitutions lead. -/
theorem Visit.expansion_leads (hsub : ∀ q err t, v.Enters sub wiring q err t →
    Leads T (sub q wiring err) t) :
    Leads T (expandStage sub wiring v.err v.command) v.before := by
  rw [Leads, expandStage_snd]
  refine expandWord_leads hrefl htrans fun front q back text err t hparts hfront => ?_
  exact hsub q err t ⟨front, back, text, hparts, hfront⟩

/-- A stage leads where its substitutions and its builtin lead. -/
theorem Visit.Runs.leads (hrun : v.Runs sub wiring)
    (hsub : ∀ q err t, v.Enters sub wiring q err t → Leads T (sub q wiring err) t)
    (hbuiltin : ∀ stage b stdin files err t, v.Performs sub wiring stage b stdin files err t →
      T t.stance v.after.stance) :
    T v.before.stance v.after.stance := by
  have hstage : Leads T (runStage sub wiring v.command v.input v.out v.err) v.before := by
    refine .bind htrans (Visit.expansion_leads hrefl htrans hsub) ?_
    rintro ⟨stage, err⟩ t hexp
    refine .bind htrans (hrefl _) ?_
    rintro _ _ ⟨⟩
    dsimp only
    -- Before the command only substitutions lead anywhere.
    cases hflag : t.expansionFailed with
    | true => exact hrefl _
    | false =>
        refine .bind htrans (Keeps.leads hrefl (openAll_keeps_stance _ _)) ?_
        rintro (failure | files) u hopen
        · exact Keeps.leads hrefl (.bind (report_keeps_stance _ _) fun _ => .pure _)
        · have ready : v.Ready sub wiring stage files err u := ⟨t, hexp, hflag, hopen⟩
          dsimp only
          cases hname : stage.name.isEmpty with
          | true => exact hrefl _
          | false =>
              refine .bind htrans (hrefl _) ?_
              rintro _ _ ⟨⟩
              exact ready.leads hrefl hrun hname fun b stdin h => hbuiltin _ _ _ _ _ _ h
  rw [Leads, hrun] at hstage
  exact hstage

omit hrefl htrans in
/-- A substitution leads where its pipeline leads, one level deeper. -/
theorem nest_leads {run : Pipeline → Wiring → Exec Result} {q : Pipeline}
    (h : Leads T (run q wiring.nested) t.enter) : Leads T (nest run q wiring err) t := by
  unfold Leads at h ⊢
  rw [runOn_nest]
  rcases hr : runOn (run q wiring.nested) t.enter with ⟨e | result, u⟩ <;> rw [hr] at h
  · exact h
  · have hpass : Keeps Session.stance (do
        let err ← passOn err result.stderr
        return (dropLineEnds result.stdout, err)) :=
      .bind (passOn_keeps_stance _ _) fun _ => .pure _
    dsimp only
    rw [hpass u.leave]
    exact h

/-- Before each stage of a pipeline, the stance is where the stages before it have led. -/
theorem visitsFrom_leads {total i : Nat} {input : Input} {p : Pipeline}
    (hstage : ∀ v ∈ visitsFrom sub wiring total i input err p s, T v.before.stance v.after.stance)
    (hv : v ∈ visitsFrom sub wiring total i input err p s) : T s.stance v.before.stance := by
  induction p generalizing i input err s with
  | nil => cases hv
  | cons command rest ih =>
      rcases @visitsFrom_cons_cases sub wiring total i input err command rest s with
        ⟨w, hw, ⟨ended, -, hvs⟩ | ⟨-, hvs⟩⟩ <;> rw [hvs] at hv hstage
      -- In both cases the first stage begins where the pipeline does.
      all_goals
        have hbefore : w.before.stance = s.stance := by
          rw [hw]
          rfl
      · rcases List.mem_cons.1 hv with rfl | hrest
        · rw [hbefore]
          exact hrefl _
        · have hfirst := hstage w List.mem_cons_self
          rw [hbefore] at hfirst
          have hothers := ih (fun u hu => hstage u (List.mem_cons_of_mem _ hu)) hrest
          exact htrans _ _ _ hfirst hothers
      · rw [List.mem_singleton.1 hv, hbefore]
        exact hrefl _

/-- A run leads where its stages lead, one after the other. -/
theorem runWith_leads {p : Pipeline}
    (hstage : ∀ v ∈ visits sub wiring p s, T v.before.stance v.after.stance) :
    Leads T (runWith sub p wiring) s := by
  by_cases hp : p = []
  · rw [Leads, hp, runWith_nil]
    exact hrefl _
  · rcases @exists_last_visit sub wiring p s hp with ⟨vs, v, hvs⟩
    have hv : v ∈ visits sub wiring p s := by simp [hvs]
    have hend : (runOn (runWith sub p wiring) s).2.stance = v.after.stance := by
      rw [runOn_runWith hvs, Visit.conclusion]
      cases v.result <;> rfl
    rw [Leads, hend]
    exact htrans _ _ _ (visitsFrom_leads hrefl htrans hstage hv) (hstage v hv)

/-! ## Runs -/

/-- Every builtin that is run while `p` is, at any level, leads from a stance to a related one. -/
def EachLeads (T : Stance → Stance → Prop) (levels : Nat) (p : Pipeline) (wiring : Wiring)
    (s : Session) :
    Prop :=
  ∀ rest w v stage b stdin files err t, Occurs levels p wiring s rest w v →
    v.Performs (substitutionWithin rest) w stage b stdin files err t → T t.stance v.after.stance

variable {levels rest : Nat} {p : Pipeline} {w : Wiring}

omit hrefl htrans in
/-- What leads at every depth does so inside a substitution. -/
theorem EachLeads.inside {q : Pipeline} (h : EachLeads T (levels + 1) p wiring s)
    (hv : v ∈ visits (substitutionWithin (levels + 1)) wiring p s)
    (hq : v.Enters (substitutionWithin (levels + 1)) wiring q err t) :
    EachLeads T levels q wiring.nested t.enter :=
  fun _ _ _ _ _ _ _ _ _ hoccurs => h _ _ _ _ _ _ _ _ _ (.inside hv hq hoccurs)

/-- A substitution that is entered leads on. -/
theorem EachLeads.enters {q : Pipeline} (h : EachLeads T levels p wiring s)
    (hv : v ∈ visits (substitutionWithin levels) wiring p s)
    (hq : v.Enters (substitutionWithin levels) wiring q err t) :
    Leads T (substitutionWithin levels q wiring err) t := by
  induction levels generalizing p q wiring s t v err with
  | zero => exact Keeps.leads hrefl (refuse_keeps_stance q wiring err)
  | succ levels ih =>
      have hinner := h.inside hv hq
      refine nest_leads ?_
      rw [runWithin_eq_runWith]
      refine runWith_leads hrefl htrans fun v' hv' => ?_
      refine (visitsFrom_runs hv').leads hrefl htrans (fun _ _ _ => ih hinner hv') ?_
      exact fun _ _ _ _ _ _ => hinner _ _ _ _ _ _ _ _ _ (.here hv')

/-- Each visited stage leads on. -/
theorem EachLeads.visit (h : EachLeads T levels p wiring s)
    (hv : v ∈ visits (substitutionWithin levels) wiring p s) : T v.before.stance v.after.stance :=
  (visitsFrom_runs hv).leads hrefl htrans (fun _ _ _ => h.enters hrefl htrans hv)
    fun _ _ _ _ _ _ => h _ _ _ _ _ _ _ _ _ (.here hv)

/-- A run leads where its builtins lead, whatever it ends in. -/
theorem runWithin_leads (h : EachLeads T levels p wiring s) :
    Leads T (runWithin levels p wiring) s := by
  rw [runWithin_eq_runWith]
  exact runWith_leads hrefl htrans fun v hv => h.visit hrefl htrans hv

/-- Before each stage, at any level, the stance is where the builtins have led that were run by
then. -/
theorem Occurs.leads (hv : Occurs levels p wiring s rest w v) (h : EachLeads T levels p wiring s) :
    T s.stance v.before.stance := by
  induction hv with
  | here visited =>
      exact visitsFrom_leads hrefl htrans (fun u hu => h.visit hrefl htrans hu) visited
  | @inside levels rest p q wiring w s t err v v' visited entered _ ih =>
      have houter : T s.stance v.before.stance :=
        visitsFrom_leads hrefl htrans (fun u hu => h.visit hrefl htrans hu) visited
      -- The substitution is reached once the parts before it are expanded.
      have hfront : T v.before.stance t.stance := by
        rcases entered with ⟨front, back, text, hparts, hfront⟩
        have hword : Leads T (expandWord (substitutionWithin (levels + 1)) wiring v.err front)
          v.before := by
          refine expandWord_leads hrefl htrans fun front' q' back' text' err' t' hsplit hfront' =>
            ?_
          refine h.enters hrefl htrans visited ⟨front', back' ++ .substitution q :: back, text', ?_,
            hfront'⟩
          rw [hparts, hsplit, List.append_assoc, List.cons_append]
        rw [Leads, hfront] at hword
        exact hword
      exact htrans _ _ _ houter (htrans _ _ _ hfront (ih (h.inside visited entered)))

/-- A substitution at any depth leads on. -/
theorem Occurs.enters_leads {q : Pipeline} (hv : Occurs levels p wiring s rest w v)
    (h : EachLeads T levels p wiring s) (hq : v.Enters (substitutionWithin rest) w q err t) :
    Leads T (substitutionWithin rest q w err) t := by
  induction hv with
  | here visited => exact h.enters hrefl htrans visited hq
  | inside visited entered _ ih => exact ih (h.inside visited entered) hq

/-- The same when the stage is about to run its command. -/
theorem Occurs.leads_ready {stage : Stage String} {files : StageFiles}
    (hv : Occurs levels p wiring s rest w v) (h : EachLeads T levels p wiring s)
    (ready : v.Ready (substitutionWithin rest) w stage files err t) : T s.stance t.stance := by
  rcases ready with ⟨u, hexp, -, hopen⟩
  have hexpansion := Visit.expansion_leads hrefl htrans fun _ _ _ => hv.enters_leads hrefl htrans h
  rw [Leads, hexp] at hexpansion
  rw [(openAll_keeps_stance _ _).eq hopen]
  exact htrans _ _ _ (hv.leads hrefl htrans h) hexpansion

end Trail

end LineShell
