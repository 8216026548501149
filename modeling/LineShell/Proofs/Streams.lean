import LineShell.Proofs.Visits

/-!
# Streams — error output that is kept in memory only grows

If a run keeps its error output, then every error sink that a stage works with is memory, at every
level, and nothing that was written to it is lost. Writing to memory cannot fail, so such a run is
not ended by a report that cannot be written.

* `Sink.Extends` — memory stays memory and keeps its bytes;
* `substitutionWithin_extends`, `Visit.Meets.err_extends` — expansions and stages extend their error
  sink;
* `Occurs.err_eq_buffer` — the error sink of every stage of a run with captured errors is memory;
* `Occurs.not_breaksOff`, `Occurs.not_unheard` — in such a run neither expansions nor reports fail
  to be written.
-/

namespace LineShell

/-! ## Memory that grows -/

/-- If `before` is memory, then so is `after`, and it holds all that `before` held. -/
def Sink.Extends (before after : Sink) : Prop :=
  ∀ bytes, before = .buffer bytes → ∃ more, after = .buffer (bytes ++ more)

namespace Sink.Extends

variable {a b c : Sink}

theorem refl (a : Sink) : a.Extends a := by
  intro bytes h
  exact ⟨[], by rw [h, List.append_nil]⟩

theorem trans (hab : a.Extends b) (hbc : b.Extends c) : a.Extends c := by
  intro bytes h
  rcases hab bytes h with ⟨more, hb⟩
  rcases hbc _ hb with ⟨rest, hc⟩
  exact ⟨more ++ rest, by rw [hc, List.append_assoc]⟩

/-- A sink that takes over what was written extends itself. -/
theorem receive (a written : Sink) : a.Extends (a.receive written) := by
  rintro bytes rfl
  exact ⟨written.held, rfl⟩

/-- What a program wrote extends the sink it wrote to. -/
theorem after (a : Sink) (written : Written) : a.Extends (a.after written) := by
  rintro bytes rfl
  exact ⟨written.bytes, rfl⟩

theorem afterStop (a after : Sink) : a.Extends (a.afterStop after) := by
  rintro bytes rfl
  exact ⟨[], by rw [List.append_nil]; rfl⟩

end Sink.Extends

section Writing

variable {sink after : Sink} {bs : Bytes} {s t : Session} {e : Error}

/-- A write extends its sink. -/
theorem write_extends (h : runOn (Exec.write sink bs) s = (.ok after, t)) : sink.Extends after := by
  rintro bytes rfl
  rw [runOn_write_buffer] at h
  cases h
  exact ⟨bs, rfl⟩

/-- A write to a buffer cannot fail. -/
theorem write_buffer_ne_error (bytes : Bytes) :
    runOn (Exec.write (.buffer bytes) bs) s ≠ (.error e, t) := by
  rw [runOn_write_buffer]
  simp

/-- Hearing a complaint extends the sink. -/
theorem Sink.Hears.extends {text : Option String} (h : sink.Hears text after) :
    sink.Extends after := by
  cases text with
  | none =>
      cases h
      exact .refl _
  | some text =>
      rcases h with ⟨s, t, hreport⟩
      exact write_extends hreport

/-- What the shell says stands at the end of the memory. -/
theorem Sink.Hears.buffer {text : String} {bytes : Bytes}
    (h : (Sink.buffer bytes).Hears (some text) after) :
    after = .buffer (bytes ++ Utf8.encode (text ++ "\n")) := by
  rcases h with ⟨s, t, hreport⟩
  rw [runOn_report_buffer] at hreport
  cases hreport
  rfl

end Writing

/-! ## Expansion -/

/-- A substitution that comes to its end extends the error sink. -/
def Substitution.Extends (sub : Substitution) : Prop :=
  ∀ q wiring err s text err' t, runOn (sub q wiring err) s = (.ok (text, err'), t) →
    err.Extends err'

theorem refuse_extends : Substitution.Extends refuse := by
  intro q wiring err s text err' t h
  rw [refuse, runOn_bind_of_ok (runOn_get s)] at h
  rcases runOn_bind_eq_ok_iff.1 h with ⟨after, u, hreport, hrest⟩
  cases hrest
  exact write_extends hreport

theorem passOn_extends {err err' : Sink} {text : String} {s t : Session}
    (h : runOn (passOn err text) s = (.ok err', t)) : err.Extends err' := by
  rw [passOn] at h
  split at h
  · cases h
    exact .refl _
  · exact write_extends h

/-- The run of a nested pipeline that comes to its end. -/
theorem nest_eq_ok {run : Pipeline → Wiring → Exec Result} {q : Pipeline} {wiring : Wiring}
    {err err' : Sink} {s t : Session} {text : String}
    (h : runOn (nest run q wiring err) s = (.ok (text, err'), t)) :
    ∃ result u, runOn (run q wiring.nested) s.enter = (.ok result, u) ∧
      runOn (passOn err result.stderr) u.leave = (.ok err', t) := by
  rw [runOn_nest] at h
  rcases hinner : runOn (run q wiring.nested) s.enter with ⟨e | result, u⟩ <;> rw [hinner] at h
  · cases h
  · rcases runOn_bind_eq_ok_iff.1 h with ⟨after, u', hpass, hrest⟩
    cases hrest
    exact ⟨result, u, rfl, hpass⟩

/-- What a substitution reports is added to the sink it was given. -/
theorem nest_extends (run : Pipeline → Wiring → Exec Result) : Substitution.Extends (nest run) := by
  intro q wiring err s text err' t h
  rcases nest_eq_ok h with ⟨result, u, -, hpass⟩
  exact passOn_extends hpass

/-- At every depth, a substitution adds to the sink it was given. -/
theorem substitutionWithin_extends (levels : Nat) : (substitutionWithin levels).Extends := by
  cases levels with
  | zero => exact refuse_extends
  | succ levels => exact nest_extends _

section Stages

variable {sub : Substitution} (hsub : sub.Extends) {wiring : Wiring} {err err' : Sink}
  {s t : Session} {v : Visit} {stage : Stage String} {files : StageFiles} {fate : Fate}
    {ended : Ended}
include hsub

theorem expandPart_extends {part : Part} {text : String × Sink}
    (h : runOn (expandPart sub wiring err part) s = (.ok text, t)) : err.Extends text.2 := by
  cases part with
  | text _ =>
      cases h
      exact .refl _
  | var _ =>
      simp only [expandPart, runOn_bind, runOn_get, runOn_note, runOn_pure, Prod.mk.injEq,
        Except.ok.injEq] at h
      rw [← h.1]
      exact .refl _
  | substitution q => exact hsub q wiring err s text.1 text.2 t h

/-- Expanding a word adds to the sink it was given. -/
theorem expandWord_extends {w : Word} {text : String × Sink}
    (h : runOn (expandWord sub wiring err w) s = (.ok text, t)) : err.Extends text.2 := by
  induction w generalizing err s t text with
  | nil =>
      cases h
      exact .refl _
  | cons part rest ih =>
      simp only [expandWord, runOn_bind_eq_ok_iff, runOn_pure] at h
      rcases h with ⟨first, s₁, hfirst, tail, s₂, htail, heq⟩
      simp only [Prod.mk.injEq, Except.ok.injEq] at heq
      rw [← heq.1]
      have hrest := ih htail
      exact (expandPart_extends hsub hfirst).trans hrest

/-- An expanded stage has added to the sink it began with. -/
theorem Visit.Expanded.extends (h : v.Expanded sub wiring stage err t) : v.err.Extends err := by
  rcases expandStage_eq_ok h with ⟨text, hword⟩
  exact expandWord_extends hsub hword

/-- What was added before a substitution is entered is still there. -/
theorem Visit.Enters.extends {q : Pipeline} (h : v.Enters sub wiring q err t) :
    v.err.Extends err := by
  rcases h with ⟨front, back, text, -, hfront⟩
  exact expandWord_extends hsub hfront

omit hsub in
/-- A command adds to the sink it was given. -/
theorem Commanded.extends {input : Input} {out out' : Sink}
    (h : Commanded stage files input out err t fate out' err') : err.Extends err' := by
  cases h with
  | builtin _ _ _ => exact .receive _ _
  | unstarted _ _ => exact .refl _
  | stopped _ _ _ _ => exact .afterStop _ _
  | ran _ _ _ => exact .after _ _

omit hsub in
/-- A stage that does not redirect its errors has no file for them. -/
theorem Visit.Ready.stderr_eq_none (ready : v.Ready sub wiring stage files err t)
    (hplain : ¬ v.command.Redirects .stderr) : files.stderr = none := by
  have hiff : files.stderr.isSome ↔ v.command.Redirects .stderr :=
    @Visit.Ready.isSome_iff _ _ _ _ _ _ _ ready .stderr (by decide)
  rw [← Option.not_isSome_iff_eq_none, hiff]
  exact hplain

omit hsub in
theorem StageFiles.errOr_of_none (h : files.stderr = none) (err : Sink) :
    files.errOr err = err := by
  simp [errOr, h]

omit hsub in
/-- A stage that meets a fate was expanded, and leaves at least what the expansion left in the error
sink. -/
theorem Visit.Meets.expansion_extends (h : v.Meets sub wiring fate ended) :
    ∃ stage err t, v.Expanded sub wiring stage err t ∧ err.Extends ended.err := by
  cases h with
  | unexpanded expanded _ => exact ⟨_, _, _, expanded, .refl _⟩
  | unopened expanded _ _ heard => exact ⟨_, _, _, expanded, heard.extends⟩
  | nameless ready _ =>
      rcases ready with ⟨u, expanded, -, -⟩
      exact ⟨_, _, _, expanded, .refl _⟩
  | @command stage files err out' err' err'' t fate ready _ ends heard =>
      rcases ready with ⟨u, expanded, -, -⟩
      refine ⟨_, _, _, expanded, ?_⟩
      unfold StageFiles.settle
      cases hfile : files.stderr with
      | some handle => exact .refl _
      | none =>
          rw [StageFiles.errOr_of_none hfile] at ends
          exact ends.extends.trans heard.extends

/-- A stage extends the error sink of its pipeline. -/
theorem Visit.Meets.err_extends (h : v.Meets sub wiring fate ended) : v.err.Extends ended.err := by
  rcases h.expansion_extends with ⟨stage, err, t, expanded, hends⟩
  exact (expanded.extends hsub).trans hends

/-- Every stage begins with what the earlier ones wrote. -/
theorem visitsFrom_err_extends {total i : Nat} {input : Input} {p : Pipeline}
    (hv : v ∈ visitsFrom sub wiring total i input err p s) : err.Extends v.err := by
  refine visitsFrom_invariant (P := fun after _ => err.Extends after) hv (.refl _) ?_ ?_
  · intro _ _ _ h
    exact h
  · rintro w ended hrun ⟨hr, -⟩ h
    rcases hrun.exists_meets hr with ⟨fate, hmeets⟩
    exact h.trans (hmeets.err_extends hsub)

end Stages

/-! ## Runs that keep their error output -/

section Captured

variable {levels rest : Nat} {p : Pipeline} {wiring w : Wiring} {s t : Session} {v : Visit}

/-- Every error sink is memory, at every level. -/
theorem Occurs.err_eq_buffer (h : Occurs levels p wiring s rest w v)
    (hcapture : wiring.captureErrors = true) : ∃ bytes, v.err = .buffer bytes := by
  induction h with
  | here visited =>
      have hsink : Wiring.errorSink _ = .buffer [] := if_pos hcapture
      rcases visitsFrom_err_extends (substitutionWithin_extends _) visited [] hsink
        with ⟨more, herr⟩
      exact ⟨_, herr⟩
  | inside _ _ _ ih => exact ih hcapture

/-- A refusal fails only in its write. -/
theorem refuse_eq_error {q : Pipeline} {err : Sink} {e : Error} {u : Session}
    (h : runOn (refuse q wiring err) t = (.error e, u)) :
    ∃ bs, runOn (Exec.write err bs) t = (.error e, u) := by
  rw [refuse, runOn_bind_of_ok (runOn_get t)] at h
  rcases runOn_bind_eq_error_iff.1 h with hreport | ⟨err', t', -, hrest⟩
  · exact ⟨_, hreport⟩
  · cases hrest

/-- An expansion does not break off if the error output is kept. -/
theorem Occurs.not_breaksOff (h : Occurs levels p wiring s rest w v)
    (hcapture : wiring.captureErrors = true) (e : Error) : ¬ v.BreaksOff rest w e := by
  rcases h.err_eq_buffer hcapture with ⟨bytes, herr⟩
  intro hbreak
  cases rest with
  | zero =>
      rcases hbreak with ⟨q, err, t, hq, hrefuse⟩
      rcases hq.extends refuse_extends bytes herr with ⟨more, rfl⟩
      rcases refuse_eq_error hrefuse with ⟨bs, hwrite⟩
      exact write_buffer_ne_error _ hwrite
  | succ rest =>
      rcases hbreak with ⟨q, err, t, result, u, bs, hq, -, hwrite⟩
      rcases hq.extends (substitutionWithin_extends _) bytes herr with ⟨more, rfl⟩
      exact write_buffer_ne_error _ hwrite

/-- The shell is heard if the error output is kept and the stage does not redirect it. -/
theorem Occurs.not_unheard (h : Occurs levels p wiring s rest w v)
    (hcapture : wiring.captureErrors = true) (hplain : ¬ v.command.Redirects .stderr) (e : Error) :
    ¬ v.Unheard (substitutionWithin rest) w e := by
  have hsub := substitutionWithin_extends rest
  rcases h.err_eq_buffer hcapture with ⟨bytes, herr⟩
  rintro (⟨stage, err, t, text, u, hexp, hreport⟩ |
    ⟨stage, files, err, t, fate, out', err', text, u, hready, hends, hreport⟩)
  · rcases hexp.extends hsub bytes herr with ⟨more, rfl⟩
    exact write_buffer_ne_error _ hreport
  · rw [StageFiles.errOr_of_none (hready.stderr_eq_none hplain)] at hends
    rcases hready with ⟨u', hexp, -, -⟩
    rcases (hexp.extends hsub).trans hends.extends bytes herr with ⟨more, rfl⟩
    exact write_buffer_ne_error _ hreport

end Captured

end LineShell
