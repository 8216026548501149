import LineShell.Proofs.Fates

/-!
# Visits — the stages that a run comes by

A run of a pipeline visits its stages one after the other, up to the first that does not simply
finish. Each stage may visit further stages while its words are expanded, one level deeper.

* `visits` — the stages of a pipeline that are run, with what each was given and what came of it;
* `Visit.HandsOver` — what a stage leaves to the next;
* `visitsFrom_invariant` — what every stage keeps holds before each of them;
* `runOn_runWith` — the last visit decides how the pipeline ends;
* `Occurs` — the stages that are run at any level;
* `Occurs.frame_eq` — how such a stage finds the session;
* `Occurs.runs_into` — an error of a stage is the error of the whole run, from every level;
* `exists_occurs_of_error` — an error of the run comes from a stage that caused it itself.
-/

namespace LineShell

/-! ## How a pipeline starts and ends -/

namespace Wiring

def errorSink (w : Wiring) : Sink :=
  if w.captureErrors then .memory else .stderr

def firstInput (w : Wiring) : Input :=
  if w.emptyInput then .empty else .inherited

/-- Where the output of a stage goes that has so many stages behind it. -/
def outputSink (w : Wiring) (behind : Nat) : Sink :=
  if 0 < behind ∨ w.captureOutput = true then .memory else .stdout

/-- What the caller of a pipeline gets to see. -/
def resultOf (w : Wiring) (flow : Flow) : Result :=
  { stdout := if w.captureOutput then Utf8.decodeLossy flow.output else ""
    stderr := if w.captureErrors then Utf8.decodeLossy flow.err.held else ""
    code := flow.code
    exit := flow.exit }

end Wiring

namespace Outcome

def status : Outcome → Int
  | .finished code | .exited code | .aborted code => code

/-- The status that a stage asked the session to end with. -/
def exit? : Outcome → Option Int
  | .exited code => some code
  | _ => none

/-- The stage lets the next one run. -/
def Continues : Outcome → Prop
  | .finished _ => True
  | _ => False

instance : DecidablePred Continues := fun o =>
  match o with
  | .finished _ => .isTrue trivial
  | .exited _ => .isFalse id
  | .aborted _ => .isFalse id

end Outcome

/-! ## The visits of a run -/

namespace Visit

/-- The visit to a stage that is given all this. -/
def of (sub : Substitution) (wiring : Wiring) (command : Command) (input : Input) (out err : Sink)
    (before : Session) : Visit :=
  let run := runOn (runStage sub wiring command input out err) before
  ⟨command, input, out, err, before, run.1, run.2⟩

/-- The stage finished, and the next one may run. -/
def Passed (v : Visit) (ended : Ended) : Prop :=
  v.result = .ok ended ∧ ended.outcome.Continues

/-- What stage number `i` leaves to the next: its buffer to read, its error sink and its session. -/
def HandsOver (total i : Nat) (v w : Visit) : Prop :=
  ∃ ended, v.Passed ended ∧ w.input = .piped ended.out.held ∧ w.err = ended.err ∧
    w.before = (v.after.noting (.stageFinished i ended.outcome)).noting
      (.stageStarting (i + 1) total)

/-- How a pipeline ends if this is the last visit, to stage number `i`. -/
def conclusion (v : Visit) (i : Nat) : Except Error Flow × Session :=
  match v.result with
  | .error e => (.error e, v.after)
  | .ok ended =>
      (.ok {
        code := ended.outcome.status
        exit := ended.outcome.exit?
        output := if ended.outcome.Continues then ended.out.held else []
        err := ended.err }, v.after.noting (.stageFinished i ended.outcome))

end Visit

/-- The visits to the stages from number `i` on, of `total` in all. -/
def visitsFrom (sub : Substitution) (wiring : Wiring) (total : Nat) :
    Nat → Input → Sink → List Command → Session → List Visit
  | _, _, _, [], _ => []
  | i, input, err, command :: rest, s =>
      let v := Visit.of sub wiring command input (wiring.outputSink rest.length) err
        (s.noting (.stageStarting i total))
      v :: match v.result with
        | .ok ⟨.finished code, out, err⟩ =>
            visitsFrom sub wiring total (i + 1) (.piped out.held) err rest
              (v.after.noting (.stageFinished i (.finished code)))
        | _ => []

/-- The visits to the stages of a pipeline. -/
def visits (sub : Substitution) (wiring : Wiring) (p : Pipeline) (s : Session) : List Visit :=
  visitsFrom sub wiring p.length 0 wiring.firstInput wiring.errorSink p s

section Run

variable {sub : Substitution} {wiring : Wiring} {total i : Nat} {input : Input} {err : Sink}
  {command : Command} {p rest : Pipeline} {s : Session}

/-- The first visit, and what follows it: the other stages if it passes, else nothing. -/
theorem visitsFrom_cons_cases :
    ∃ v, v = Visit.of sub wiring command input (wiring.outputSink rest.length) err
        (s.noting (.stageStarting i total)) ∧
      ((∃ ended, v.Passed ended ∧
        visitsFrom sub wiring total i input err (command :: rest) s =
          v :: visitsFrom sub wiring total (i + 1) (.piped ended.out.held) ended.err rest
            (v.after.noting (.stageFinished i ended.outcome))) ∨
      ((∀ ended, ¬ v.Passed ended) ∧
        visitsFrom sub wiring total i input err (command :: rest) s = [v])) := by
  rw [visitsFrom]
  generalize Visit.of sub wiring command input (wiring.outputSink rest.length) err
    (s.noting (.stageStarting i total)) = v
  refine ⟨v, rfl, ?_⟩
  rcases hr : v.result with e | ⟨code | code | code, out, err⟩
  · exact .inr ⟨by simp [Visit.Passed, hr], by simp⟩
  · exact .inl ⟨_, ⟨hr, trivial⟩, by simp⟩
  · exact .inr ⟨by simp [Visit.Passed, hr, Outcome.Continues], by simp⟩
  · exact .inr ⟨by simp [Visit.Passed, hr, Outcome.Continues], by simp⟩

theorem visitsFrom_ne_nil (hp : p ≠ []) : visitsFrom sub wiring total i input err p s ≠ [] := by
  cases p with
  | nil => exact (hp rfl).elim
  | cons command rest => simp [visitsFrom]

/-- Every visited stage runs. -/
theorem visitsFrom_runs {v : Visit} (hv : v ∈ visitsFrom sub wiring total i input err p s) :
    v.Runs sub wiring := by
  induction p generalizing i input err s with
  | nil => cases hv
  | cons command rest ih =>
      rcases @visitsFrom_cons_cases sub wiring total i input err command rest s with
        ⟨w, rfl, ⟨ended, -, hvs⟩ | ⟨-, hvs⟩⟩
      · rw [hvs] at hv
        rcases List.mem_cons.1 hv with rfl | hrest
        · rfl
        · exact ih hrest
      · rw [hvs, List.mem_singleton] at hv
        rw [hv]
        rfl

/-- Stages are visited in order, from the first one on. -/
theorem visitsFrom_commands :
    (visitsFrom sub wiring total i input err p s).map Visit.command <+: p := by
  induction p generalizing i input err s with
  | nil => exact List.nil_prefix
  | cons command rest ih =>
      rcases @visitsFrom_cons_cases sub wiring total i input err command rest s with
        ⟨w, rfl, ⟨ended, -, hvs⟩ | ⟨-, hvs⟩⟩
      · rw [hvs, List.map_cons, List.cons_prefix_cons]
        exact ⟨rfl, ih⟩
      · rw [hvs, List.map_cons, List.cons_prefix_cons]
        exact ⟨rfl, List.nil_prefix⟩

/-- What holds of the error sink and the session at the start, is kept by every stage that passes
and does not depend on the journal, holds before each stage. -/
theorem visitsFrom_invariant {P : Sink → Session → Prop} {v : Visit}
    (hv : v ∈ visitsFrom sub wiring total i input err p s) (hstart : P err s)
    (hnote : ∀ err s event, P err s → P err (s.noting event))
    (hstage : ∀ (w : Visit) (ended : Ended), w.Runs sub wiring → w.Passed ended → P w.err w.before →
      P ended.err w.after) :
    P v.err v.before := by
  induction p generalizing i input err s with
  | nil => cases hv
  | cons command rest ih =>
      rcases @visitsFrom_cons_cases sub wiring total i input err command rest s with ⟨w, hw, hcases⟩
      have hrun : w.Runs sub wiring := by
        rw [hw]
        rfl
      have hfirst : P w.err w.before := by
        rw [hw]
        exact hnote _ _ _ hstart
      rcases hcases with ⟨ended, hpass, hvs⟩ | ⟨-, hvs⟩ <;> rw [hvs] at hv
      · rcases List.mem_cons.1 hv with rfl | hrest
        · exact hfirst
        · exact ih hrest (hnote _ _ _ (hstage w ended hrun hpass hfirst))
      · rw [List.mem_singleton] at hv
        rw [hv]
        exact hfirst

/-- All stages of a pipeline run in the same frame. -/
theorem visitsFrom_frame (hsub : sub.KeepsFrame) {v : Visit}
    (hv : v ∈ visitsFrom sub wiring total i input err p s) : v.before.frame = s.frame := by
  refine visitsFrom_invariant (P := fun _ t => t.frame = s.frame) hv rfl ?_ ?_
  · intro _ _ _ h
    exact h
  · intro w ended hrun _ h
    exact ((runStage_keeps_frame hsub wiring _ _ _ _).eq hrun).trans h

/-- The first stage has the input, the errors and the state at hand. -/
theorem visitsFrom_head {v : Visit} (hv : (visitsFrom sub wiring total i input err p s)[0]? =
    some v) :
    v.input = input ∧ v.err = err ∧ v.before = s.noting (.stageStarting i total) := by
  cases p with
  | nil => cases hv
  | cons command rest =>
      rw [visitsFrom, List.getElem?_cons_zero, Option.some.injEq] at hv
      subst hv
      exact ⟨rfl, rfl, rfl⟩

/-- The last stage writes to the output, and the others into memory. -/
theorem visitsFrom_output {k : Nat} {v : Visit}
    (hv : (visitsFrom sub wiring total i input err p s)[k]? = some v) :
    v.out = wiring.outputSink (p.length - (k + 1)) := by
  induction p generalizing i input err s k with
  | nil => cases hv
  | cons command rest ih =>
      rcases @visitsFrom_cons_cases sub wiring total i input err command rest s with
        ⟨w, hw, ⟨ended, -, hvs⟩ | ⟨-, hvs⟩⟩ <;> rw [hvs] at hv
      all_goals cases k with
        | zero =>
            rw [List.getElem?_cons_zero, Option.some.injEq] at hv
            rw [← hv, hw]
            rfl
        | succ k => ?_
      · rw [List.getElem?_cons_succ] at hv
        rw [ih hv, List.length_cons, Nat.add_sub_add_right]
      · cases hv

/-- Each stage hands over to the next one. -/
theorem visitsFrom_handsOver {k : Nat} {v w : Visit}
    (hv : (visitsFrom sub wiring total i input err p s)[k]? = some v)
    (hw : (visitsFrom sub wiring total i input err p s)[k + 1]? = some w) :
    v.HandsOver total (i + k) w := by
  induction p generalizing i input err s k with
  | nil => cases hv
  | cons command rest ih =>
      rcases @visitsFrom_cons_cases sub wiring total i input err command rest s with
        ⟨u, -, ⟨ended, hpass, hvs⟩ | ⟨-, hvs⟩⟩ <;> rw [hvs] at hv hw
      · cases k with
        | zero =>
            rw [List.getElem?_cons_zero, Option.some.injEq] at hv
            subst hv
            exact ⟨ended, hpass, visitsFrom_head hw⟩
        | succ k =>
            have hover := ih hv hw
            rwa [Nat.add_right_comm, Nat.add_assoc] at hover
      · cases hw

/-- A stage that passes is the last of the pipeline, or there is a visit behind it. -/
theorem visitsFrom_passed {k : Nat} {v : Visit} {ended : Ended}
    (hv : (visitsFrom sub wiring total i input err p s)[k]? = some v) (hpass : v.Passed ended) :
    k + 1 = p.length ∨ k + 1 < (visitsFrom sub wiring total i input err p s).length := by
  induction p generalizing i input err s k with
  | nil => cases hv
  | cons command rest ih =>
      rcases @visitsFrom_cons_cases sub wiring total i input err command rest s with
        ⟨w, -, ⟨ended', -, hvs⟩ | ⟨hstop, hvs⟩⟩ <;> rw [hvs] at hv ⊢
      · rw [List.length_cons, List.length_cons]
        cases k with
        | zero =>
            -- A stage that passes is the last one of the pipeline, or the next one is visited too.
            by_cases hrest : rest = []
            · exact .inl (by simp [hrest])
            · exact .inr (Nat.succ_lt_succ (List.length_pos_iff.2 (visitsFrom_ne_nil hrest)))
        | succ k =>
            rcases ih hv with hlast | hnext
            · exact .inl (congrArg _ hlast)
            · exact .inr (Nat.succ_lt_succ hnext)
      · cases k with
        | zero =>
            rw [List.getElem?_cons_zero, Option.some.injEq] at hv
            subst hv
            exact (hstop ended hpass).elim
        | succ k => cases hv

theorem outputSink_eq :
    (if !rest.isEmpty || wiring.captureOutput then Sink.memory else .stdout) =
      wiring.outputSink rest.length := by
  cases rest <;> simp [Wiring.outputSink]

/-- One step of a pipeline: after a visit that passes the other stages run, and any other visit
decides how the pipeline ends. -/
theorem runOn_runStages_cons {v : Visit}
    (hv : v = Visit.of sub wiring command input (wiring.outputSink rest.length) err
      (s.noting (.stageStarting i total))) :
    runOn (runStages sub wiring total i input err (command :: rest)) s =
      match v.result with
      | .ok ⟨.finished code, out, err⟩ =>
          if rest.isEmpty then v.conclusion i
          else runOn (runStages sub wiring total (i + 1) (.piped out.held) err rest)
            (v.after.noting (.stageFinished i (.finished code)))
      | _ => v.conclusion i := by
  have hrun : runOn (runStage sub wiring command input (wiring.outputSink rest.length) err)
      (s.noting (.stageStarting i total)) = (v.result, v.after) := by
    rw [hv]
    rfl
  rw [runStages, runOn_bind_of_ok (runOn_note _ _), outputSink_eq, Visit.conclusion]
  rcases hr : v.result with e | ended <;> rw [hr] at hrun
  · exact runOn_bind_of_error hrun
  · rw [runOn_bind_of_ok hrun, runOn_bind_of_ok (runOn_note _ _)]
    rcases ended with ⟨code | code | code, out, err⟩
    · dsimp only
      split <;> rfl
    · rfl
    · rfl

/-- The last visit decides how the stages end. -/
theorem runOn_runStages {v : Visit} {vs : List Visit}
    (h : visitsFrom sub wiring total i input err p s = vs ++ [v]) :
    runOn (runStages sub wiring total i input err p) s = v.conclusion (i + vs.length) := by
  induction p generalizing i input err s vs with
  | nil => simp [visitsFrom] at h
  | cons command rest ih =>
      -- Either the first stage passes and the others follow, or it is the only one that is visited.
      rcases @visitsFrom_cons_cases sub wiring total i input err command rest s with
        ⟨w, hw, ⟨⟨outcome, out', err'⟩, ⟨hr, hcont⟩, hvs⟩ | ⟨hstop, hvs⟩⟩ <;>
        rw [runOn_runStages_cons hw] <;> rw [hvs] at h
      · cases outcome with
        | exited code => cases hcont
        | aborted code => cases hcont
        | finished code =>
            simp only [hr]
            cases rest with
            | nil =>
                rcases List.append_eq_singleton_iff.1 h.symm with ⟨rfl, hv⟩ | ⟨-, hv⟩
                · cases hv
                  rfl
                · cases hv
            | cons command' rest =>
                rcases List.cons_eq_append_iff.1 h with ⟨-, hv⟩ | ⟨vs', rfl, htail⟩
                · exact (visitsFrom_ne_nil (List.cons_ne_nil _ _) (List.cons.inj hv).2.symm).elim
                · -- The last visit is among the others, which are counted from the next number on.
                  rw [List.length_cons, Nat.add_comm vs'.length, ← Nat.add_assoc]
                  exact ih htail
      · rcases List.append_eq_singleton_iff.1 h.symm with ⟨rfl, hv⟩ | ⟨-, hv⟩
        · cases hv
          rcases hr : v.result with e | ⟨code | code | code, out', err'⟩
          · rfl
          · exact (hstop _ ⟨hr, trivial⟩).elim
          · rfl
          · rfl
        · cases hv

/-- A pipeline ends as its last visit says. -/
theorem runOn_runWith {v : Visit} {vs : List Visit} (h : visits sub wiring p s = vs ++ [v]) :
    runOn (runWith sub p wiring) s =
      ((v.conclusion vs.length).1.map wiring.resultOf, (v.conclusion vs.length).2) := by
  have hrun := runOn_runStages h
  rw [Nat.zero_add] at hrun
  have hwith : runWith sub p wiring =
      wiring.resultOf <$> runStages sub wiring p.length 0 wiring.firstInput wiring.errorSink p := by
    rw [map_eq_pure_bind]
    rfl
  rw [hwith, runOn_map, hrun]

theorem runWith_nil : runOn (runWith sub [] wiring) s = (.ok {}, s) := by
  rcases wiring with ⟨_ | _, _ | _, _ | _⟩ <;> rfl

/-- A visit that does not pass is the last one. -/
theorem visits_eq_append {v : Visit} (hv : v ∈ visits sub wiring p s)
    (hstop : ∀ ended, ¬ v.Passed ended) : ∃ vs, visits sub wiring p s = vs ++ [v] := by
  rcases List.append_of_mem hv with ⟨vs, behind, hvs⟩
  cases behind with
  | nil => exact ⟨vs, hvs⟩
  | cons w behind =>
      -- A stage behind it was handed something, so the visit passed.
      have hat : (visits sub wiring p s)[vs.length]? = some v := by simp [hvs]
      have hnext : (visits sub wiring p s)[vs.length + 1]? = some w := by simp [hvs]
      rcases visitsFrom_handsOver hat hnext with ⟨ended, hpass, -⟩
      exact (hstop ended hpass).elim

/-- A pipeline that is not empty has a last visit. -/
theorem exists_last_visit (hp : p ≠ []) : ∃ vs v, visits sub wiring p s = vs ++ [v] := by
  rcases List.eq_nil_or_concat (visits sub wiring p s) with hnil | ⟨vs, v, hvs⟩
  · exact (visitsFrom_ne_nil hp hnil).elim
  · exact ⟨vs, v, by rw [hvs, List.concat_eq_append]⟩

/-- An error of a stage ends the pipeline at once. -/
theorem runOn_runWith_of_error {v : Visit} {e : Error} (hv : v ∈ visits sub wiring p s)
    (hr : v.result = .error e) : runOn (runWith sub p wiring) s = (.error e, v.after) := by
  rcases visits_eq_append hv (by simp [Visit.Passed, hr]) with ⟨vs, hvs⟩
  rw [runOn_runWith hvs, Visit.conclusion, hr]
  rfl

/-- A pipeline ends in an error only if its last stage does. -/
theorem exists_visit_of_error {e : Error} {t : Session}
    (h : runOn (runWith sub p wiring) s = (.error e, t)) :
    ∃ v ∈ visits sub wiring p s, v.result = .error e ∧ v.after = t := by
  by_cases hp : p = []
  · subst hp
    cases h
  · rcases @exists_last_visit sub wiring p s hp with ⟨vs, v, hvs⟩
    rw [runOn_runWith hvs, Visit.conclusion] at h
    refine ⟨v, by simp [hvs], ?_⟩
    cases hr : v.result with
    | ok ended =>
        rw [hr] at h
        cases h
    | error e' =>
        rw [hr] at h
        cases h
        exact ⟨rfl, rfl⟩

end Run

/-! ## The stages at every level -/

/-- While the words of the stage are expanded, the substitution `q` is reached; `err` and `t` are
the error sink and the session at that moment. -/
def Visit.Enters (sub : Substitution) (wiring : Wiring) (v : Visit) (q : Pipeline) (err : Sink)
    (t : Session) : Prop :=
  ∃ front back text, v.command.parts = front ++ .substitution q :: back ∧
    runOn (expandWord sub wiring v.err front) v.before = (.ok (text, err), t)

/-- The stage `v` is run, with `rest` of the `levels` left and wired as `w` says, while `p` is. -/
inductive Occurs : Nat → Pipeline → Wiring → Session → Nat → Wiring → Visit → Prop where
  | here {levels : Nat} {p : Pipeline} {wiring : Wiring} {s : Session} {v : Visit}
      (visited : v ∈ visits (substitutionWithin levels) wiring p s) :
      Occurs levels p wiring s levels wiring v
  | inside {levels rest : Nat} {p q : Pipeline} {wiring w : Wiring} {s t : Session} {err : Sink}
      {v v' : Visit} (visited : v ∈ visits (substitutionWithin (levels + 1)) wiring p s)
      (entered : v.Enters (substitutionWithin (levels + 1)) wiring q err t)
      (within : Occurs levels q wiring.nested t.enter rest w v') :
      Occurs (levels + 1) p wiring s rest w v'

/-- The expansion of the stage breaks off because a write to its error sink fails. Without any level
left it is the refusal of a substitution that cannot be written, else what a nested pipeline left on
its error stream. -/
def Visit.BreaksOff : Nat → Wiring → Visit → Error → Prop
  | 0, wiring, v, e => ∃ q err t, v.Enters refuse wiring q err t ∧
      runOn (refuse q wiring err) t = (.error e, v.after)
  | levels + 1, wiring, v, e => ∃ q err t result u bs,
      v.Enters (substitutionWithin (levels + 1)) wiring q err t ∧
      runOn (runWithin levels q wiring.nested) t.enter = (.ok result, u) ∧
      runOn (Exec.write err bs) u.leave = (.error e, v.after)

section Levels

variable {levels rest : Nat} {p q : Pipeline} {wiring w : Wiring} {s t u : Session} {err : Sink}
  {v : Visit} {e : Error}

/-- Every stage that occurs is run with the substitutions of its depth. -/
theorem Occurs.runs (h : Occurs levels p wiring s rest w v) :
    v.Runs (substitutionWithin rest) w := by
  induction h with
  | here visited => exact visitsFrom_runs visited
  | inside _ _ _ ih => exact ih

/-- No occurrence has more levels left than the run began with. -/
theorem Occurs.rest_le (h : Occurs levels p wiring s rest w v) : rest ≤ levels := by
  induction h with
  | here _ => exact Nat.le_refl _
  | inside _ _ _ ih => exact Nat.le_succ_of_le ih

/-- A substitution is entered with the frame of its stage. -/
theorem Visit.Enters.frame_eq {sub : Substitution} (hsub : sub.KeepsFrame)
    (h : v.Enters sub wiring q err t) : t.frame = v.before.frame := by
  rcases h with ⟨front, back, text, -, hfront⟩
  exact (expandWord_keeps_frame hsub wiring _ _).eq hfront

/-- A stage finds the session as the run did, up to the depth: that is larger by the number of
substitutions around the stage. -/
theorem Occurs.frame_eq (h : Occurs levels p wiring s rest w v) :
    v.before.frame = { s.frame with depth := s.depth + (levels - rest) } := by
  induction h with
  | here visited =>
      have hsame := visitsFrom_frame (substitutionWithin_keepsFrame _) visited
      rw [Nat.sub_self, hsame]
      rfl
  | @inside levels rest p q wiring w s t err v v' visited entered within ih =>
      have hsub := substitutionWithin_keepsFrame (levels + 1)
      have houter : t.frame = s.frame :=
        (entered.frame_eq hsub).trans (visitsFrom_frame hsub visited)
      have hrest := within.rest_le
      have hsum : t.enter.depth + (levels - rest) = s.depth + (levels + 1 - rest) := by
        have hdepth := Session.depth_eq_of_frame_eq houter
        have henter : t.enter.depth = t.depth + 1 := rfl
        omega
      -- Entering the substitution changes the depth and nothing else.
      have hinner : t.enter.frame = { t.frame with depth := t.depth + 1 } := rfl
      rw [ih, hsum, hinner, houter]

/-- Every stage looks its name up in the same table. -/
theorem Occurs.table_eq (h : Occurs levels p wiring s rest w v) : v.before.table = s.table := by
  have htable := congrArg Session.table h.frame_eq
  exact htable

/-- A substitution that ends in an error ends its stage. -/
theorem Visit.Enters.result {sub : Substitution} (hrun : v.Runs sub wiring)
    (h : v.Enters sub wiring q err t) (hq : runOn (sub q wiring err) t = (.error e, u)) :
    v.result = .error e ∧ v.after = u := by
  rcases h with ⟨front, back, text, hparts, hfront⟩
  have hexp : runOn (expandStage sub wiring v.err v.command) v.before = (.error e, u) :=
    expandStage_eq_error_iff.2 (expandWord_eq_error_iff.2 ⟨front, q, back, text, err, t, hparts,
      hfront, hq⟩)
  unfold Visit.Runs at hrun
  rw [runStage, runOn_bind_of_error hexp] at hrun
  simp only [Prod.mk.injEq] at hrun
  exact ⟨hrun.1.symm, hrun.2.symm⟩

/-- An error of a stage is that of the whole run, whatever its level, and nothing is done in between
that would touch the flag for failed expansions. -/
theorem Occurs.runs_into (h : Occurs levels p wiring s rest w v) (hr : v.result = .error e) :
    ∃ t, runOn (runWithin levels p wiring) s = (.error e, t) ∧
      t.expansionFailed = v.after.expansionFailed := by
  induction h with
  | here visited =>
      rw [runWithin_eq_runWith]
      exact ⟨_, runOn_runWith_of_error visited hr, rfl⟩
  | @inside levels rest p q wiring w s t err v v' visited entered within ih =>
      rcases ih hr with ⟨u, hinner, hflag⟩
      -- The nested run ends in the error, so the substitution does, and so does the stage around
      -- it.
      have hq : runOn (substitutionWithin (levels + 1) q wiring err) t = (.error e, u.leave) := by
        rw [substitutionWithin, runOn_nest, hinner]
      rcases entered.result (visitsFrom_runs visited) hq with ⟨hresult, hafter⟩
      rw [runWithin_eq_runWith]
      refine ⟨_, runOn_runWith_of_error visited hresult, ?_⟩
      rw [hafter]
      exact hflag

/-- What ends a stage with an error, if it is not an error of a nested run. -/
def Visit.Causes (rest : Nat) (wiring : Wiring) (v : Visit) (e : Error) : Prop :=
  (∃ fault, v.Unreadable (substitutionWithin rest) wiring fault ∧ e = .stream fault) ∨
    v.Unheard (substitutionWithin rest) wiring e ∨ v.BreaksOff rest wiring e

/-- A stage ends with an error of its own, or with that of one of its substitutions. -/
theorem Visit.Runs.error_cases (hrun : v.Runs (substitutionWithin rest) wiring)
    (hr : v.result = .error e) :
    v.Causes rest wiring e ∨
      ∃ q err t, v.Enters (substitutionWithin rest) wiring q err t ∧
        runOn (substitutionWithin rest q wiring err) t = (.error e, v.after) := by
  rcases hrun.cases with ⟨e', hexp, hr'⟩ | ⟨fate, ended, -, hr'⟩ | ⟨fault, hread, hr'⟩ |
    ⟨e', hunheard, hr'⟩
  all_goals rw [hr] at hr'; cases hr'
  · rcases expandWord_eq_error_iff.1 (expandStage_eq_error_iff.1 hexp) with
      ⟨front, q, back, text, err, t, hparts, hfront, hq⟩
    exact .inr ⟨q, err, t, ⟨front, back, text, hparts, hfront⟩, hq⟩
  · exact .inl (.inl ⟨fault, hread, rfl⟩)
  · exact .inl (.inr (.inl hunheard))

/-- A nested pipeline ends in the error, or what it left on its error stream cannot be passed on. -/
theorem nest_eq_error {run : Pipeline → Wiring → Exec Result}
    (h : runOn (nest run q wiring err) t = (.error e, u)) :
    (∃ u', runOn (run q wiring.nested) t.enter = (.error e, u') ∧ u = u'.leave) ∨
    ∃ result u' bs, runOn (run q wiring.nested) t.enter = (.ok result, u') ∧
      runOn (Exec.write err bs) u'.leave = (.error e, u) := by
  rw [runOn_nest] at h
  rcases hinner : runOn (run q wiring.nested) t.enter with ⟨e' | result, u'⟩ <;> rw [hinner] at h
  · cases h
    exact .inl ⟨u', rfl, rfl⟩
  · rcases runOn_bind_eq_error_iff.1 h with hpass | ⟨err', t', -, hrest⟩
    · rw [passOn] at hpass
      split at hpass
      · cases hpass
      · exact .inr ⟨result, u', _, rfl, hpass⟩
    · cases hrest

/-- An error of a run comes from some stage at some level that caused it itself. -/
theorem exists_occurs_of_error (h : runOn (runWithin levels p wiring) s = (.error e, t)) :
    ∃ rest w v, Occurs levels p wiring s rest w v ∧ v.result = .error e ∧
      v.after.expansionFailed = t.expansionFailed ∧ v.Causes rest w e := by
  induction levels generalizing p wiring s t with
  | zero =>
      rw [runWithin_eq_runWith] at h
      rcases exists_visit_of_error h with ⟨v, hv, hr, rfl⟩
      refine ⟨0, wiring, v, .here hv, hr, rfl, ?_⟩
      rcases (visitsFrom_runs hv).error_cases hr with hcause | ⟨q, err, t, hq, hrun⟩
      · exact hcause
      · exact .inr (.inr ⟨q, err, t, hq, hrun⟩)
  | succ levels ih =>
      rw [runWithin_eq_runWith] at h
      rcases exists_visit_of_error h with ⟨v, hv, hr, rfl⟩
      rcases (visitsFrom_runs hv).error_cases hr with hcause | ⟨q, err, t, hq, hrun⟩
      · exact ⟨levels + 1, wiring, v, .here hv, hr, rfl, hcause⟩
      · rcases nest_eq_error hrun with ⟨u, hinner, hafter⟩ | ⟨result, u, bs, hinner, hwrite⟩
        · -- The cause lies inside: the stage only hands the error on.
          rcases ih hinner with ⟨rest, w, v', hv', hr', hflag, hcause⟩
          refine ⟨rest, w, v', .inside hv hq hv', hr', ?_, hcause⟩
          rw [hafter]
          exact hflag
        · exact ⟨levels + 1, wiring, v, .here hv, hr, rfl,
            .inr (.inr ⟨q, err, t, result, u, bs, hq, hinner, hwrite⟩)⟩

end Levels

end LineShell
