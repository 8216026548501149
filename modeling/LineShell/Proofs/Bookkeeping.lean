import LineShell.Proofs.Streams

/-!
# Bookkeeping — the depth and the flag of a session

A session counts the substitutions around the present command, and keeps a flag that a command must
not run because one of its substitutions was refused. The count always comes back. The flag is put
down when the stage whose expansion failed comes to its end, so it stays up if the stage ends the
line before that.

* `Occurs.depth_eq` — while a stage runs, the depth is the number of substitutions around it;
* `Visit.Runs.flag_eq_false` — a stage that was expanded leaves the flag down;
* `runWithin_flag` — so does a pipeline that comes to its end;
* `Visit.DropsRefusal` — a stage that refused a substitution, and could not write the refusal of
  another;
* `books_balance` — the depth is restored on every path, and the flag on every path but this one;
* `refusal_skips_next_line` — on this path the next line is skipped.
-/

namespace LineShell

/-! ## The depth -/

/-- The sessions that a stage passes through itself: while its words are expanded, while its files
are opened, when its command starts, and at its end. -/
def Visit.Passes (sub : Substitution) (wiring : Wiring) (v : Visit) (t : Session) : Prop :=
  (∃ front back r, v.command.parts = front ++ back ∧
    runOn (expandWord sub wiring v.err front) v.before = (r, t)) ∨
  (∃ stage err u front back r, v.Expanded sub wiring stage err u ∧
    stage.redirections = front ++ back ∧ runOn (openAll {} front) u = (r, t)) ∨
  (∃ stage files err u, v.Ready sub wiring stage files err u ∧ t = u.starting stage) ∨
  t = v.after

section Depth

variable {sub : Substitution} {levels rest : Nat} {p : Pipeline} {wiring w : Wiring} {s t : Session}
  {v : Visit}

/-- Expanding the words of a stage leaves the frame as it was. -/
theorem Visit.Passes.frame_eq (hsub : sub.KeepsFrame) (hrun : v.Runs sub wiring)
    (h : v.Passes sub wiring t) : t.frame = v.before.frame := by
  rcases h with ⟨front, back, r, -, hword⟩ | ⟨stage, err, u, front, back, r, hexp, -, hopen⟩ |
    ⟨stage, files, err, u, hready, rfl⟩ | rfl
  · exact (expandWord_keeps_frame hsub wiring _ _).eq hword
  · exact ((openAll_keeps_ledger _ _).frame.eq hopen).trans
      ((expandStage_keeps_frame hsub wiring _ _).eq hexp)
  · exact hready.frame_eq hsub
  · exact (runStage_keeps_frame hsub wiring _ _ _ _).eq hrun

/-- A stage runs at the depth of the run, plus the number of substitutions around it. -/
theorem Occurs.depth_eq (h : Occurs levels p wiring s rest w v) :
    v.before.depth = s.depth + (levels - rest) := by
  have hdepth := congrArg Session.depth h.frame_eq
  exact hdepth

/-- The limits are the same at every occurrence. -/
theorem Occurs.limits_eq (h : Occurs levels p wiring s rest w v) : v.before.limits = s.limits := by
  have hlimits := congrArg Session.limits h.frame_eq
  exact hlimits

end Depth

/-! ## The flag -/

section Flag

variable {sub : Substitution} {levels rest : Nat} {p q : Pipeline} {wiring w : Wiring}
  {s t : Session} {v : Visit} {err : Sink} {e : Error}

/-- Once a stage is expanded, the flag is put down, and nothing behind that puts it up again. -/
theorem Visit.Runs.flag_eq_false (hrun : v.Runs sub wiring) {stage : Stage String}
    (hexp : v.Expanded sub wiring stage err t) : v.after.expansionFailed = false := by
  unfold Visit.Runs at hrun
  cases hflag : t.expansionFailed with
  | true =>
      rw [runOn_runStage_of_failed hexp hflag, Prod.mk.injEq] at hrun
      rw [← hrun.2]
  | false =>
      -- The flag is down already, and what is left to do works on the scene.
      rw [runStage, runOn_bind_of_ok hexp] at hrun
      dsimp only at hrun
      rw [runOn_bind_of_ok (runOn_get t)] at hrun
      simp only [hflag, Bool.false_eq_true, if_false] at hrun
      rw [← hflag]
      refine Session.flag_eq_of_ledger_eq
        (Keeps.eq (.bind (openAll_keeps_ledger _ _) fun opened => ?_) hrun)
      cases opened with
      | error failure => exact .bind (report_keeps_ledger _ _) fun _ => .pure _
      | ok files =>
          dsimp only
          split
          · exact .pure _
          · exact .bind (note_keeps_ledger _) fun _ => runCommand_keeps_ledger _ _ _ _ _

/-- A stage that ends with an outcome has taken the flag down. -/
theorem Visit.Runs.flag_eq_false_of_ok {ended : Ended} (hrun : v.Runs sub wiring)
    (hr : v.result = .ok ended) : v.after.expansionFailed = false := by
  rcases hrun.exists_meets hr with ⟨fate, hmeets⟩
  rcases hmeets.expansion_extends with ⟨stage, err, t, hexp, -⟩
  exact hrun.flag_eq_false hexp

/-- A pipeline that comes to its end leaves the flag down, even if it was up before its first
stage. -/
theorem runWithin_flag_of_ne_nil {result : Result} (hp : p ≠ [])
    (h : runOn (runWithin levels p wiring) s = (.ok result, t)) : t.expansionFailed = false := by
  rw [runWithin_eq_runWith] at h
  rcases @exists_last_visit (substitutionWithin levels) wiring p s hp with ⟨vs, v, hvs⟩
  have hrun : v.Runs (substitutionWithin levels) wiring :=
    visitsFrom_runs (show v ∈ visits _ wiring p s by simp [hvs])
  rw [runOn_runWith hvs, Visit.conclusion] at h
  cases hr : v.result with
  | error e =>
      rw [hr] at h
      cases h
  | ok ended =>
      rw [hr] at h
      cases h
      exact hrun.flag_eq_false_of_ok hr

theorem runWithin_nil : runOn (runWithin levels [] wiring) s = (.ok {}, s) := by
  rw [runWithin_eq_runWith]
  exact runWith_nil

/-- A run that starts with the flag down ends with it down. -/
theorem runWithin_flag {result : Result} (hflag : s.expansionFailed = false)
    (h : runOn (runWithin levels p wiring) s = (.ok result, t)) : t.expansionFailed = false := by
  by_cases hp : p = []
  · subst hp
    rw [runWithin_nil] at h
    cases h
    exact hflag
  · exact runWithin_flag_of_ne_nil hp h

/-- In a run that starts with the flag down, every stage finds it down. -/
theorem visitsFrom_flag {total i : Nat} {input : Input} (hflag : s.expansionFailed = false)
    (hv : v ∈ visitsFrom sub wiring total i input err p s) : v.before.expansionFailed = false := by
  refine visitsFrom_invariant (P := fun _ t => t.expansionFailed = false) hv hflag ?_ ?_
  · intro _ _ _ h
    exact h
  · rintro w ended hrun ⟨hr, -⟩ _
    exact hrun.flag_eq_false_of_ok hr

/-! With levels left, an expansion does not touch the flag: it is put up and down again inside. -/

/-- A substitution that runs leaves the flag down. -/
theorem nest_flag {text : String × Sink} (hflag : s.expansionFailed = false)
    (h : runOn (nest (runWithin levels) q wiring err) s = (.ok text, t)) :
    t.expansionFailed = false := by
  rcases nest_eq_ok h with ⟨result, u, hinner, hpass⟩
  rw [Session.flag_eq_of_ledger_eq ((passOn_keeps_ledger _ _).eq hpass)]
  exact @runWithin_flag _ _ _ s.enter u result hflag hinner

/-- A word expanded within the limit leaves the flag down. -/
theorem expandWord_nest_flag {word : Word} {text : String × Sink}
    (hflag : s.expansionFailed = false)
    (h : runOn (expandWord (substitutionWithin (levels + 1)) wiring err word) s = (.ok text, t)) :
    t.expansionFailed = false := by
  induction word generalizing err s t text with
  | nil =>
      cases h
      exact hflag
  | cons part rest ih =>
      simp only [expandWord, runOn_bind_eq_ok_iff, runOn_pure] at h
      rcases h with ⟨first, s₁, hfirst, tail, s₂, htail, heq⟩
      -- One level above the lowest a substitution is run and not refused, so it leaves the flag
      -- down.
      have hfirst' : s₁.expansionFailed = false := by
        cases part with
        | text _ =>
            cases hfirst
            exact hflag
        | var name =>
            rw [Session.flag_eq_of_ledger_eq (Keeps.eq (.bind .get fun _ =>
              .bind (note_keeps_ledger _) fun _ => .pure _) hfirst)]
            exact hflag
        | substitution q => exact nest_flag hflag hfirst
      cases heq
      exact ih hfirst' htail

/-! Without any level left, every substitution is refused and puts the flag up. -/

/-- A refusal puts the flag up. -/
theorem refuse_flag {text : String × Sink} (h : runOn (refuse q wiring err) s = (.ok text, t)) :
    t.expansionFailed = true := by
  rw [refuse, runOn_bind_of_ok (runOn_get s)] at h
  rcases runOn_bind_eq_ok_iff.1 h with ⟨err', u, -, hrest⟩
  rw [runOn_bind_of_ok (runOn_modify _ _)] at hrest
  cases hrest
  rfl

/-- Where all substitutions are refused, the flag tells if the word had one. -/
theorem expandWord_refuse_flag {word : Word} {text : String × Sink}
    (h : runOn (expandWord refuse wiring err word) s = (.ok text, t)) :
    t.expansionFailed = true ↔ s.expansionFailed = true ∨ ∃ q, Part.substitution q ∈ word := by
  induction word generalizing err s t text with
  | nil =>
      cases h
      simp
  | cons part rest ih =>
      simp only [expandWord, runOn_bind_eq_ok_iff, runOn_pure] at h
      rcases h with ⟨first, s₁, hfirst, tail, s₂, htail, heq⟩
      cases heq
      rw [ih htail]
      -- Only a substitution raises the flag, and each one does.
      cases part with
      | text _ =>
          cases hfirst
          simp
      | var name =>
          have hflag := Session.flag_eq_of_ledger_eq (Keeps.eq (.bind .get fun _ =>
            .bind (note_keeps_ledger _) fun _ => .pure _) hfirst)
          simp [hflag]
      | substitution q =>
          have hflag := @refuse_flag q wiring _ _ _ _ hfirst
          simp [hflag]

/-- The flag is down whenever a stage starts, at every level. -/
theorem Occurs.flag_eq_false (h : Occurs levels p wiring s rest w v)
    (hflag : s.expansionFailed = false) :
    v.before.expansionFailed = false := by
  induction h with
  | here visited => exact visitsFrom_flag hflag visited
  | inside visited entered _ ih =>
      rcases entered with ⟨front, back, text, -, hfront⟩
      have hentered := expandWord_nest_flag (visitsFrom_flag hflag visited) hfront
      exact ih hentered

/-- The stage refused a substitution, and then could not write the refusal of another one. -/
def Visit.DropsRefusal (wiring : Wiring) (v : Visit) (e : Error) : Prop :=
  ∃ front q back text err t, v.command.parts = front ++ .substitution q :: back ∧
    (∃ q', Part.substitution q' ∈ front) ∧
    runOn (expandWord refuse wiring v.err front) v.before = (.ok (text, err), t) ∧
    runOn (refuse q wiring err) t = (.error e, v.after)

/-- A refusal that cannot be reported leaves the flag as it was. -/
theorem refuse_error_flag (h : runOn (refuse q wiring err) s = (.error e, t)) :
    t.expansionFailed = s.expansionFailed := by
  rcases refuse_eq_error h with ⟨bs, hwrite⟩
  exact Session.flag_eq_of_ledger_eq ((write_keeps_ledger _ _).eq hwrite)

/-- A stage that ends the line itself leaves the flag up only if it drops a refusal. -/
theorem Occurs.dropsRefusal (h : Occurs levels p wiring s rest w v)
    (hflag : s.expansionFailed = false) (hcause : v.Causes rest w e)
    (hup : v.after.expansionFailed = true) :
    rest = 0 ∧ v.DropsRefusal w e := by
  have hbefore := h.flag_eq_false hflag
  -- The end of the expansion puts the flag down, so the expansion itself must have broken off.
  have hexpanded : ∀ stage err t, ¬ v.Expanded (substitutionWithin rest) w stage err t := by
    intro stage err t hexp
    rw [h.runs.flag_eq_false hexp] at hup
    cases hup
  rcases hcause with ⟨fault, hread, -⟩ | hunheard | hbreak
  · rcases hread with ⟨stage, files, err, t, b, handle, ⟨u, hexp, -, -⟩, -⟩
    exact (hexpanded _ _ _ hexp).elim
  · rcases hunheard with ⟨stage, err, t, text, u, hexp, -⟩ |
      ⟨stage, files, err, t, fate, out', err', text, u, ⟨u', hexp, -, -⟩, -⟩
    · exact (hexpanded _ _ _ hexp).elim
    · exact (hexpanded _ _ _ hexp).elim
  · cases rest with
    | zero =>
        rcases hbreak with ⟨q, err, t, ⟨front, back, text, hparts, hfront⟩, hrefuse⟩
        refine ⟨rfl, front, q, back, text, err, t, hparts, ?_, hfront, hrefuse⟩
        -- The failing write does not touch the flag, so an earlier substitution has put it up.
        rw [refuse_error_flag hrefuse, expandWord_refuse_flag hfront, hbefore] at hup
        simpa using hup
    | succ rest =>
        rcases hbreak with ⟨q, err, t, result, u, bs, ⟨front, back, text, -, hfront⟩, hinner,
          hwrite⟩
        -- With a level left, the nested run came to its end, and it left the flag down.
        have hentered := expandWord_nest_flag hbefore hfront
        have hleft := @runWithin_flag _ _ _ t.enter u result hentered hinner
        rw [Session.flag_eq_of_ledger_eq ((write_keeps_ledger _ _).eq hwrite)] at hup
        rw [show u.leave.expansionFailed = u.expansionFailed from rfl, hleft] at hup
        cases hup

/-- The flag is up at the end of a run if and only if some stage dropped a refusal. -/
theorem runWithin_flag_iff {r : Except Error Result} (hflag : s.expansionFailed = false)
    (h : runOn (runWithin levels p wiring) s = (r, t)) :
    t.expansionFailed = true ↔
      ∃ w v e, Occurs levels p wiring s 0 w v ∧ v.DropsRefusal w e ∧ r = .error e := by
  constructor
  · intro hup
    cases r with
    | ok result =>
        rw [runWithin_flag hflag h] at hup
        cases hup
    | error e =>
        rcases exists_occurs_of_error h with ⟨rest, w, v, hv, -, hsame, hcause⟩
        rcases hv.dropsRefusal hflag hcause (hsame.trans hup) with ⟨rfl, hdrop⟩
        exact ⟨w, v, e, hv, hdrop, rfl⟩
  · rintro ⟨w, v, e, hv, ⟨front, q, back, text, err, u, hparts, hsome, hfront, hrefuse⟩, rfl⟩
    -- The refusal that could not be written ends the stage, and with it the run.
    have hentered : v.Enters refuse w q err u := ⟨front, back, text, hparts, hfront⟩
    rcases @Visit.Enters.result q w u v.after err v e refuse hv.runs hentered hrefuse with ⟨hr, -⟩
    rcases hv.runs_into hr with ⟨t', hrun, hsame⟩
    rw [h] at hrun
    cases hrun
    rw [hsame, refuse_error_flag hrefuse, expandWord_refuse_flag hfront]
    exact .inr hsome

end Flag

/-! ## Both together -/

/-- The books of a session that starts with the flag down. While any stage runs, the depth is that
of the start plus the number of substitutions around the stage, it does not go over the limit, and
substitutions are refused exactly at the limit. When the pipeline is done, with an answer or an
error, the depth is that of the start. The flag is up then if and only if a stage at the limit
refused one substitution and could not write the refusal of the next; not after an answer, and not
if errors are kept. -/
theorem books_balance (p : Pipeline) (wiring : Wiring) (s : Session)
    (hflag : s.expansionFailed = false) :
    (∀ rest w v t, Occurs s.room p wiring s rest w v → v.Passes (substitutionWithin rest) w t →
      t.depth = s.depth + (s.room - rest) ∧
      (s.depth ≤ s.limits.maxDepth → t.depth ≤ s.limits.maxDepth) ∧
      (rest = 0 ↔ t.limits.maxDepth ≤ t.depth)) ∧
    ∀ r t, runOn (Session.execute p wiring) s = (r, t) →
      t.depth = s.depth ∧
      (t.expansionFailed = true ↔
        ∃ w v e, Occurs s.room p wiring s 0 w v ∧ v.DropsRefusal w e ∧ r = .error e) ∧
      (∀ result, r = .ok result → t.expansionFailed = false) ∧
      (wiring.captureErrors = true → t.expansionFailed = false) := by
  constructor
  · intro rest w v t hv hpass
    have hframe := hpass.frame_eq (substitutionWithin_keepsFrame rest) hv.runs
    have hdepth : t.depth = s.depth + (s.room - rest) :=
      (Session.depth_eq_of_frame_eq hframe).trans hv.depth_eq
    have hlimits : t.limits = s.limits := (Session.limits_eq_of_frame_eq hframe).trans hv.limits_eq
    have hrest := hv.rest_le
    have hroom : s.room = s.limits.maxDepth - s.depth := rfl
    rw [hlimits]
    omega
  · intro r t h
    rw [Session.execute, runOn_bind_of_ok (runOn_get s)] at h
    have hiff := runWithin_flag_iff hflag h
    refine ⟨Session.depth_eq_of_frame_eq ((runWithin_keeps_frame _ _ _).eq h), hiff, ?_, ?_⟩
    · rintro result rfl
      exact runWithin_flag hflag h
    · intro hcapture
      -- A refusal that is written to memory always succeeds, so none is dropped.
      rw [← Bool.not_eq_true, hiff]
      rintro ⟨w, v, e, hv, ⟨front, q, back, text, err, u, hparts, -, hfront, hrefuse⟩, -⟩
      exact hv.not_breaksOff hcapture e ⟨q, err, u, ⟨front, back, text, hparts, hfront⟩, hrefuse⟩

/-- The command `echo $(true)$(true)`. -/
def twoSubstitutions : Command :=
  ⟨[.text "echo"],
    [[.substitution [⟨[.text "true"], [], []⟩], .substitution [⟨[.text "true"], [], []⟩]]], []⟩

/-- The command `echo hi`. -/
def greeting : Command :=
  ⟨[.text "echo"], [[.text "hi"]], []⟩

/-- A session without room for substitutions, in which the second write to the error output
fails. -/
def brittleSession : Session :=
  { limits := { maxDepth := 0 }
    scene := { host := { stderr := { plan := [none, some (.os 5)] } } } }

/-- With the errors captured, the report of a refusal cannot fail, and the flag is taken down. -/
theorem captured_refusals_leave_flag_down :
    (runOn (Session.execute [twoSubstitutions] .captured) brittleSession).2.expansionFailed =
    false :=
  ((books_balance [twoSubstitutions] .captured brittleSession rfl).2 _ _ rfl).2.2.2 rfl

/-- If the second refusal cannot be written, then the line ends with the flag up, and the next line
is skipped with status one. Before that line it prints its text. -/
theorem refusal_skips_next_line :
    brittleSession.expansionFailed = false ∧
    (∃ u, runOn (Session.execute [greeting] .terminal) brittleSession = (.ok {}, u) ∧
      u.scene.host.stdout.written = Utf8.encode "hi\n") ∧
    ∃ e t, runOn (Session.execute [twoSubstitutions] .terminal) brittleSession = (.error e, t) ∧
      t.expansionFailed = true ∧
      ∃ u, runOn (Session.execute [greeting] .terminal) t = (.ok { code := 1 }, u) ∧
        u.scene.host.stdout.written = [] :=
  ⟨rfl, ⟨_, rfl, by decide⟩, .stream (.os 5), _, rfl, rfl, _, rfl, rfl⟩

end LineShell
