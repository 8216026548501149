import LineShell.Proofs.Discretion
import LineShell.Proofs.Failures

/-!
# Splitting — a pipe into a builtin

The builtins that every session starts with do not look at their input. So a pipeline that goes on
with one of them can be cut in front of it: its two parts, run one after the other, do what the
whole does.

* `Session.gather` — a pipeline in a session, with all output kept as bytes;
* `Session.collected` — the bytes of its error output;
* `runStages_passing` — once all stages of the first part have passed, the whole goes on with the
  second part;
* `pipe_into_builtin_is_two_lines` — the whole against the parts.
-/

namespace LineShell

namespace Session

/-- Runs a pipeline in a session with all output kept, and gives the bytes. -/
def gather (p : Pipeline) : Exec Flow := do
  runStages (substitutionWithin (← get).room) .captured p.length 0 .empty .memory p

/-- The bytes that a pipeline leaves on its error output, if it comes to an end. -/
def collected (s : Session) (p : Pipeline) : Bytes :=
  match (runOn (gather p) s).1 with
  | .ok flow => flow.err.held
  | .error _ => []

end Session

/-- To gather is to run the stages into memory, up to the flow they leave. -/
theorem runOn_gather (p : Pipeline) (s : Session) :
    runOn (Session.gather p) s =
      runOn (runStages (substitutionWithin s.room) .captured p.length 0 .empty .memory p) s :=
  runOn_bind_of_ok (runOn_get s)

/-- What the caller of a captured pipeline gets is made of the bytes that were gathered. -/
theorem runOn_execute_captured (p : Pipeline) (s : Session) :
    runOn (Session.execute p .captured) s =
      ((runOn (Session.gather p) s).1.map Wiring.captured.resultOf,
        (runOn (Session.gather p) s).2) := by
  rw [Session.execute, runOn_bind_of_ok (runOn_get s), runWithin_eq_runWith, runWith_eq_map,
    runOn_gather, ← runOn_map]
  rfl

section Splitting

variable {sub : Substitution} {wiring : Wiring} {total total' i i' : Nat} {input : Input}
  {a b : Sink} {s t : Session} {p q : Pipeline}

/-- With nothing written before, there is no difference. -/
theorem Trailing.eq_of_nil (h : Trailing [] [] a b s t) : b = a := by
  rcases h with ⟨-, ⟨bytes, rfl, rfl⟩, -⟩
  rfl

/-- With the output captured, every stage writes into memory. -/
theorem outputSink_of_capture (hcapture : wiring.captureOutput = true) (behind : Nat) :
    wiring.outputSink behind = .memory := by
  simp [Wiring.outputSink, hcapture]

/-- After a stage that passes, the stages behind it run. -/
theorem runOn_runStages_of_passed {command : Command} {rest : Pipeline} {v : Visit} {ended : Ended}
    (hv : v = Visit.of sub wiring command input (wiring.outputSink rest.length) a
      (s.noting (.stageStarting i total))) (hpass : v.Passed ended) (hrest : rest ≠ []) :
    runOn (runStages sub wiring total i input a (command :: rest)) s =
      runOn (runStages sub wiring total (i + 1) (.piped ended.out.held) ended.err rest)
        (v.after.noting (.stageFinished i ended.outcome)) := by
  rcases ended with ⟨code | code | code, out, err⟩ <;> rcases hpass with ⟨hr, hgo⟩
  · rw [runOn_runStages_cons hv, hr]
    exact if_neg (by simpa using hrest)
  · cases hgo
  · cases hgo

/-- A stage that passes also passes in a session that differs in the journal alone, and it leaves
the same. -/
theorem Visit.Passed.trailing {v v' : Visit} {ended : Ended} (hpass : v.Passed ended)
    (hrun : v.Runs sub wiring) (hrun' : v'.Runs sub wiring) (hsub : sub.Trailing wiring)
    (hframe : sub.KeepsFrame) (hdiscreet : v.before.Discreet)
    (h : Trailing [] [] v.err v'.err v.before v'.before)
    (hsame : v'.command = v.command ∧ v'.input = v.input ∧ v'.out = v.out) :
    ∃ ended', v'.Passed ended' ∧ ended'.outcome = ended.outcome ∧ ended'.out.held = ended.out.held ∧
      Trailing [] [] ended.err ended'.err v.after v'.after := by
  have hstage := hrun.trailing (P := SendsNothing) hsub hframe hdiscreet (fun _ => rfl) h (.inl rfl)
  rw [← hsame.1, ← hsame.2.1, ← hsame.2.2, hrun', hpass.1] at hstage
  rcases hstage.of_ok with ⟨ended', _, hends, houtcome, o, rfl, -, hheld, hlike⟩
  rw [Prod.mk.injEq] at hends
  refine ⟨ended', ⟨hends.1, ?_⟩, houtcome.symm, hheld.symm, ?_⟩
  · rw [← houtcome]
    exact hpass.2
  · rw [hends.2]
    exact hlike

/-- If all stages of `p` pass, then the stages of `p` and `q` come to those of `q`: they read what
is left of the last stage of `p`, behind its error output. -/
theorem runStages_passing (hsub : sub.Trailing wiring) (hframe : sub.KeepsFrame)
    (hcapture : wiring.captureOutput = true) (hdiscreet : s.Discreet) (hp : p ≠ []) (hq : q ≠ [])
    (hpassed : ∀ v ∈ visitsFrom sub wiring total i input a p s, ∃ ended, v.Passed ended)
    (h : Trailing [] [] a b s t) :
    ∃ flow u u', runOn (runStages sub wiring total i input a p) s = (.ok flow, u) ∧
      Trailing [] [] flow.err flow.err u u' ∧
      runOn (runStages sub wiring total' i' input b (p ++ q)) t =
        runOn (runStages sub wiring total' (i' + p.length) (.piped flow.output) flow.err q) u' := by
  induction p generalizing i i' input a b s t with
  | nil => exact (hp rfl).elim
  | cons command rest ih =>
      rcases @visitsFrom_cons_cases sub wiring total i input a command rest s with
        ⟨v, hv, ⟨ended, hpass, hvs⟩ | ⟨hstop, hvs⟩⟩
      · -- The first stage of the two pipelines is the same but for its number, and it passes in
        -- both runs.
        have hmem : v ∈ visitsFrom sub wiring total i input a (command :: rest) s := by simp [hvs]
        have hrun := visitsFrom_runs hmem
        have hbefore := visitsFrom_frame hframe hmem
        rcases @visitsFrom_cons_cases sub wiring total' i' input b command (rest ++ q) t
          with ⟨v', hv', -⟩
        have hstart : Trailing [] [] v.err v'.err v.before v'.before := by
          rw [hv, hv']
          exact (trailing_likeness [] []).noting h _ _
        rcases hpass.trailing hrun (by rw [hv']; rfl) hsub hframe (hdiscreet.of_frame_eq hbefore)
          hstart (by
            rw [hv, hv']
            exact ⟨rfl, rfl, by simp only [Visit.of, outputSink_of_capture hcapture]⟩) with
          ⟨ended', hpass', houtcome, hheld, hlike⟩
        have hnext := (trailing_likeness [] []).noting hlike (.stageFinished i ended.outcome)
          (.stageFinished i' ended'.outcome)
        rw [List.cons_append, runOn_runStages_of_passed hv' hpass' (by simp [hq]), hheld]
        by_cases hrest : rest = []
        · -- The last stage of `p` ends it, and the whole goes on from there.
          subst hrest
          rw [runOn_runStages (show visitsFrom sub wiring total i input a [command] s =
            [] ++ [v] from hvs), Visit.conclusion, hpass.1]
          refine ⟨_, _, v'.after.noting (.stageFinished i' ended'.outcome), rfl, ?_, ?_⟩
          · rw [hnext.eq_of_nil] at hnext
            exact hnext
          · dsimp only
            rw [if_pos hpass.2, hnext.eq_of_nil]
            rfl
        · rw [runOn_runStages_of_passed hv hpass hrest]
          -- Behind it the induction goes on, with the error output that it left.
          have hafter := ((runStage_keeps_frame hframe wiring _ _ _ _).eq hrun).trans hbefore
          have hdiscreet' : (v.after.noting (.stageFinished i ended.outcome)).Discreet :=
            hdiscreet.of_frame_eq hafter
          rcases ih hdiscreet' hrest
            (fun w hw => hpassed w (by rw [hvs]; exact List.mem_cons_of_mem _ hw)) hnext with
            ⟨flow, u, u', hflow, hflike, hgoes⟩
          refine ⟨flow, u, u', hflow, hflike, hgoes.trans ?_⟩
          rw [List.length_cons, Nat.add_right_comm, Nat.add_assoc]
      · rcases hpassed v (by rw [hvs]; exact List.mem_singleton_self v) with ⟨ended, hpass⟩
        exact (hstop ended hpass).elim

/-- Every stage but the first reads what was piped to it. -/
theorem visitsFrom_piped {k : Nat} {v : Visit}
    (hv : (visitsFrom sub wiring total i input a p s)[k + 1]? = some v) :
    ∃ bytes, v.input = .piped bytes := by
  have hlength := (List.getElem?_eq_some_iff.1 hv).1
  have hbefore := List.getElem?_eq_getElem (Nat.lt_of_succ_lt hlength)
  rcases visitsFrom_handsOver hbefore hv with ⟨ended, -, hinput, -⟩
  exact ⟨_, hinput⟩

/-- What is gathered of `p` and `q` in one pipeline against what is gathered of `q` after `p`. -/
theorem gather_append (hp : p ≠ []) (hq : q ≠ []) (hdiscreet : s.Discreet) {s' : Session}
    (h : s.Alongside s')
    (hpassed : ∀ v ∈ visits (substitutionWithin s.room) .captured p s, ∃ ended, v.Passed ended)
    (hfirst : ∀ t v, (runOn (Session.gather p) s).2 = t →
      (visits (substitutionWithin t.room) .captured q t)[0]? = some v →
      v.RunsStandard (substitutionWithin t.room) .captured) :
    ∃ flow t, runOn (Session.gather p) s = (.ok flow, t) ∧
      Joint (Flow.Like (Trailing flow.err.held) SendsNothing) Session.Alongside
        (runOn (Session.gather q) t) (runOn (Session.gather (p ++ q)) s') := by
  have hframe := substitutionWithin_keepsFrame s.room
  have hsub : (substitutionWithin s.room).Trailing .captured :=
    substitutionWithin_trailing s.room rfl
  rcases @runStages_passing _ .captured p.length (p ++ q).length 0 0 .empty .memory .memory s s' p q
    hsub hframe rfl hdiscreet hp hq hpassed ⟨rfl, ⟨[], rfl, rfl⟩, h⟩
      with ⟨flow, t, t', hflow, ⟨-, ⟨bytes, herr, -⟩, hsame⟩, hgoes⟩
  have hgather : runOn (Session.gather p) s = (.ok flow, t) := by rw [runOn_gather, hflow]
  have htframe : t.frame = s.frame := (runStages_keeps_frame hframe .captured _ _ _ _ _).eq hflow
  have hroom : t.room = s.room := by
    rw [Session.room, Session.room, Session.limits_eq_of_frame_eq htframe,
      Session.depth_eq_of_frame_eq htframe]
  have hroom' : s'.room = s.room := by
    have hroom' := congrArg Session.room h.same
    exact hroom'.symm
  refine ⟨flow, t, hgather, ?_⟩
  rw [runOn_gather q t, runOn_gather (p ++ q) s', hroom', hgoes, hroom]
  have hstart : Trailing flow.err.held [] .memory flow.err t t' :=
    ⟨rfl, ⟨[], rfl, by rw [herr, List.append_nil]; rfl⟩, hsame⟩
  -- The first stage reads something else than in the second line, all others read the same.
  refine runStages_trailing hsub hframe (hdiscreet.of_frame_eq htframe)
    (I := fun x y => x = y ∨ x = .empty) (fun _ => .inl rfl) ?_ (.inr rfl) hstart
  intro k v input' hv hfeeds
  cases k with
  | zero =>
      rw [← hroom] at hv ⊢
      exact .inr (hfirst t v (congrArg Prod.snd hgather) hv)
  | succ k =>
      rcases visitsFrom_piped hv with ⟨piped, hinput⟩
      rw [hinput] at hfeeds ⊢
      rcases hfeeds with hfeeds | hfeeds
      · exact .inl hfeeds
      · cases hfeeds

end Splitting

/-- Two non-empty pipelines, with all output kept. All stages of the first pass, so that none of
them ends the session, fails to open a target or ends in an error, and the first stage of the second
runs a builtin that every session starts with, or nothing. Then the two in one pipeline do what they
do one after the other: they leave the same session but for its journal, they end in the same error
or in none, and if they end in none then the status, the wish to end the session and the output are
the same, and the bytes that are read as the error output are those of the first followed by those
of the second.

The one pipeline is run from the same session at another time, after `launches` launches. Of the
programs of the system nothing is assumed but that they do the same from then on as they do for the
two lines. -/
theorem pipe_into_builtin_is_two_lines (s : Session) (p q : Pipeline) (launches : Nat) (hp : p ≠ [])
    (hq : q ≠ []) (hrepeats : s.programs.Repeats s.launches launches) (hdiscreet : s.Discreet)
    (hpassed : ∀ v ∈ visits (substitutionWithin s.room) .captured p s, ∃ ended, v.Passed ended)
    (hfirst : ∀ t v, (runOn (Session.execute p .captured) s).2 = t →
      (visits (substitutionWithin t.room) .captured q t)[0]? = some v →
      v.RunsStandard (substitutionWithin t.room) .captured) :
    ∃ first t, runOn (Session.execute p .captured) s = (.ok first, t) ∧
      ∀ s' whole u second u', s' = { s with launches } →
        runOn (Session.execute (p ++ q) .captured) s' = (whole, u) →
        runOn (Session.execute q .captured) t = (second, u') →
        u.unlogged = u'.unlogged ∧ (∀ e, whole = .error e ↔ second = .error e) ∧
        ∀ result result', whole = .ok result → second = .ok result' →
          result.code = result'.code ∧ result.exit = result'.exit ∧ result.stdout = result'.stdout ∧
            result.stderr = Utf8.decodeLossy (s'.collected (p ++ q)) ∧
            s'.collected (p ++ q) = s.collected p ++ t.collected q := by
  have hafter : (runOn (Session.execute p .captured) s).2 = (runOn (Session.gather p) s).2 := by
    rw [runOn_execute_captured]
  rw [hafter] at hfirst
  have halong : s.Alongside { s with launches } := ⟨rfl, hrepeats⟩
  -- The one pipeline is the first, and then the second with more in front of its error output.
  rcases gather_append hp hq hdiscreet halong hpassed hfirst with ⟨flow, t, hflow, hboth⟩
  refine ⟨Wiring.captured.resultOf flow, t, by rw [runOn_execute_captured, hflow]; rfl, ?_⟩
  rintro s' whole u second u' rfl hwhole hsecond
  rw [runOn_execute_captured, Prod.mk.injEq] at hwhole hsecond
  rcases hwhole with ⟨rfl, rfl⟩
  rcases hsecond with ⟨rfl, rfl⟩
  rw [Session.collected, Session.collected, Session.collected, hflow]
  generalize runOn (Session.gather q) t = r at hboth ⊢
  generalize runOn (Session.gather (p ++ q)) _ = r' at hboth ⊢
  cases hboth with
  | error states =>
      refine ⟨states.same.symm, fun e => Iff.rfl, ?_⟩
      rintro result result' ⟨⟩
  | ok values =>
      rcases values with ⟨hcode, hexit, o, rfl, houtput, -, ⟨bytes, herr, herr'⟩, hsame⟩
      refine ⟨hsame.same.symm, fun e => ⟨by rintro ⟨⟩, by rintro ⟨⟩⟩, ?_⟩
      rintro result result' ⟨⟩ ⟨⟩
      refine ⟨hcode.symm, hexit.symm, congrArg Utf8.decodeLossy houtput.symm, rfl, ?_⟩
      dsimp only
      rw [herr, herr']
      rfl

/-- A system with one program, `grumble`, which complains and fails. From the third launch of a
session on it says the same each time. -/
def grumbling : Programs where
  start n launch host _ _ _ :=
    if launch.name = "grumble" then
      .ok {
        ending := .code 3
        disk := host.disk
        stdin := host.stdin
        stdout := host.stdout
        stderr := host.stderr
        err := { bytes := Utf8.encode (if n < 2 then "once\n" else "again\n") } }
    else .error (.os 2)

/-- The grumbling program answers the third launch as it answers the eighth. -/
theorem grumbling_repeats : grumbling.Repeats 2 7 := by
  intro i
  funext launch host input out err
  have hearly : ¬ 2 + i < 2 := by omega
  have hlate : ¬ 7 + i < 2 := by omega
  simp only [grumbling, hearly, hlate, if_false]

/-- A session on such a system that has launched two programs before. -/
def grumblingSession : Session :=
  { bareSession with programs := grumbling, launches := 2 }

/-- The command `grumble`. -/
def grumble : Command :=
  ⟨[.text "grumble"], [], []⟩

/-- The command `rm` of a file that is not there. -/
def futile : Command :=
  ⟨[.text "rm"], [[.text "gone"]], []⟩

/-- What `grumble | rm gone` complains about is what the two complain about, one after the other,
although the program is launched at another time. -/
theorem complaints_follow_each_other :
    ∃ first t, runOn (Session.execute [grumble] .captured) grumblingSession = (.ok first, t) ∧
      first.stderr = "again\n" ∧ first.code = 3 ∧
      ({ grumblingSession with launches := 7 } : Session).collected ([grumble] ++ [futile]) =
        grumblingSession.collected [grumble] ++ t.collected [futile] := by
  have hpassed : ∀ v ∈ visits (substitutionWithin grumblingSession.room) .captured [grumble]
    grumblingSession,
      ∃ ended, v.Passed ended := by
    intro v hv
    cases List.mem_singleton.1 (show v ∈ [_] from hv)
    exact ⟨_, rfl, trivial⟩
  have hfirst : ∀ t v, (runOn (Session.execute [grumble] .captured) grumblingSession).2 = t →
      (visits (substitutionWithin t.room) .captured [futile] t)[0]? = some v →
      v.RunsStandard (substitutionWithin t.room) .captured := by
    rintro t v rfl hv
    cases hv
    exact Visit.runsStandard_of_name (substitutionWithin_keepsFrame _) rfl rfl
      (show Builtin.standard.lookup "rm" = some Builtin.rm by
        simp [Builtin.standard, List.lookup_cons])
  rcases pipe_into_builtin_is_two_lines grumblingSession [grumble] [futile] 7 (by simp) (by simp)
    grumbling_repeats (fun _ _ => standard_discreet) hpassed hfirst with ⟨first, t, hrun, hboth⟩
  refine ⟨first, t, hrun, ?_⟩
  cases hrun
  rcases hboth _ _ _ _ _ rfl rfl rfl with ⟨-, -, hends⟩
  exact ⟨rfl, rfl, (hends _ _ rfl rfl).2.2.2.2⟩

end LineShell
