import LineShell.Proofs.Coupling
import LineShell.Proofs.Custody

/-!
# Unfailing — an error output that takes every write

That a write fails is planned from outside. Nothing that the shell or its builtins do adds to that
plan, so an error output that takes every write before a line still does so after it. To say this of
one run, the run is compared with itself.

* `Outlet.TakesAll` — no write to come fails;
* `Scene.Unfailing` — two scenes are the same but for their journals, and their error output takes
  every write;
* `coupling_unfailing`, `likeness_unfailing` — this is kept by builtins and by the shell;
* `runWithin_unfailing`, `run_takesAll` — pipelines and lines.
-/

namespace LineShell

/-! ## Streams -/

/-- No write to come fails. -/
def Outlet.TakesAll (o : Outlet) : Prop :=
  ∀ fault ∈ o.plan, fault = none

/-- An outlet that takes all takes every write, and goes on doing so. -/
theorem Outlet.TakesAll.write {o : Outlet} (h : o.TakesAll) (bs : Bytes) :
    (o.write bs).2 = .ok () ∧ (o.write bs).1.TakesAll := by
  rcases o with ⟨terminal, written, _ | ⟨fault, plan⟩⟩
  · exact ⟨rfl, h⟩
  · cases h fault List.mem_cons_self
    exact ⟨rfl, fun fault hfault => h fault (List.mem_cons_of_mem _ hfault)⟩

/-- Two scenes are the same but for their journals, and their error output takes every write. -/
structure Scene.Unfailing (x y : Scene) : Prop where
  seen : x.seen = y.seen
  outlets : x.outlets = y.outlets
  takes : x.host.stderr.TakesAll

section Scenes

variable {x y x' y' : Scene}

theorem Scene.Unfailing.host_eq (h : x.Unfailing y) : x.host = y.host := by
  have hhost := congrArg Scene.host h.seen
  have hstdout : x.host.stdout = y.host.stdout := congrArg Prod.fst h.outlets
  have hstderr : x.host.stderr = y.host.stderr := congrArg Prod.snd h.outlets
  calc
    x.host = { x.seen.host with stdout := x.host.stdout, stderr := x.host.stderr } := rfl
    _ = { y.seen.host with stdout := y.host.stdout, stderr := y.host.stderr } := by
      rw [hhost, hstdout, hstderr]
    _ = y.host := rfl

/-- Scenes stay unfailing while only their outlets are left alone. -/
theorem Scene.Unfailing.stable (h : x.Unfailing y) (hseen : x'.seen = y'.seen)
    (hx : x'.outlets = x.outlets) (hy : y'.outlets = y.outlets) : x'.Unfailing y' := by
  have hstderr : x'.host.stderr = x.host.stderr := congrArg Prod.snd hx
  refine ⟨hseen, ?_, ?_⟩
  · calc
      x'.outlets = x.outlets := hx
      _ = y.outlets := h.outlets
      _ = y'.outlets := hy.symm
  · rw [hstderr]
    exact h.takes

/-- Whatever comes of a write, the error output takes the next one. -/
theorem Scene.Unfailing.write (h : x.Unfailing y) (sink : Sink) (bs : Bytes) :
    ({ x with host := (sink.write bs x.host).2.1 } : Scene).Unfailing
      { y with host := (sink.write bs y.host).2.1 } := by
  have hhost := h.host_eq
  have hrest : ∀ host, ({ x with host } : Scene).seen = ({ y with host } : Scene).seen := by
    intro host
    have hseen := congrArg (fun z : Scene => ({ z with host } : Scene).seen) h.seen
    exact hseen
  rw [← hhost]
  refine ⟨hrest _, rfl, ?_⟩
  cases sink with
  | stdout => exact h.takes
  | stderr => exact (h.takes.write bs).2
  | buffer bytes => exact h.takes
  | file handle =>
      dsimp only [Sink.write]
      cases x.host.disk.write handle bs <;> exact h.takes

end Scenes

/-! ## Builtins -/

/-- Two desks with the same sinks in such scenes. -/
def Desk.Unfailing (d d' : Desk) : Prop :=
  d.out = d'.out ∧ d.err = d'.err ∧ d.scene.Unfailing d'.scene

/-- Builtins cannot tell unfailing scenes from one another. -/
theorem coupling_unfailing : Coupling Desk.Unfailing where
  seen h := h.2.2.seen
  terminal h := by rw [h.1, h.2.2.host_eq]
  stable h hseen hx hy := ⟨h.1, h.2.1, h.2.2.stable hseen hx hy⟩
  print {d d'} bs h := by
    rw [Action.print, runOn_bind_of_ok (runOn_get d), runOn_bind_of_ok (runOn_get d')]
    -- Both write the same to the same sink on the same host, so they fail together or not at all.
    have hhost := h.2.2.host_eq
    have hwrite := h.2.2.write d.out bs
    rw [← hhost] at hwrite
    rw [← h.1, ← hhost]
    generalize d.out.write bs d.scene.host = r at hwrite ⊢
    rcases r with ⟨out, host, fault | _⟩
    · exact .error ⟨rfl, h.2.1, hwrite⟩
    · exact .ok ⟨rfl, h.2.1, hwrite⟩
  report {d d'} text h := by
    rw [Action.report, runOn_bind_of_ok (runOn_get d), runOn_bind_of_ok (runOn_get d')]
    have hhost := h.2.2.host_eq
    have hwrite := h.2.2.write d.err (Utf8.encode text)
    rw [← hhost] at hwrite
    rw [← h.2.1, ← hhost]
    generalize d.err.write (Utf8.encode text) d.scene.host = r at hwrite ⊢
    rcases r with ⟨err, host, fault | _⟩
    · exact .error ⟨h.1, rfl, hwrite⟩
    · exact .ok ⟨h.1, rfl, hwrite⟩

/-! ## The shell -/

/-- Two sessions are the same but for their journals, and their error output takes every write. -/
def Session.Unfailing (s t : Session) : Prop :=
  s.ledger = t.ledger ∧ s.scene.Unfailing t.scene

/-- The same sinks in such sessions. -/
def Unfailing (a b : Sink) (s t : Session) : Prop :=
  a = b ∧ s.Unfailing t

/-- A write succeeds on both sides, and they stay unfailing. -/
theorem write_unfailing {s t : Session} (h : s.Unfailing t) (sink : Sink) (bs : Bytes) :
    Joint Unfailing Session.Unfailing (runOn (Exec.write sink bs) s)
      (runOn (Exec.write sink bs) t) := by
  have hhost := h.2.host_eq
  have hwrite := h.2.write sink bs
  rw [← hhost] at hwrite
  rw [runOn_write, runOn_write, ← hhost]
  generalize sink.write bs s.scene.host = r at hwrite ⊢
  rcases r with ⟨sink', host, fault | _⟩
  · exact .error ⟨h.1, hwrite⟩
  · exact .ok ⟨rfl, h.1, hwrite⟩

/-- Running without failures is a likeness. -/
theorem likeness_unfailing : Likeness Unfailing Session.Unfailing where
  seen h := Session.seen_eq_of h.2.2.seen h.2.1
  stable h hseen hs ht :=
    ⟨h.1, Session.ledger_eq_of_seen_eq hseen, h.2.2.stable (Session.scene_seen_eq hseen)
      (congrArg Prod.fst hs) (congrArg Prod.fst ht)⟩
  report text h := by
    rcases h with ⟨rfl, h⟩
    exact write_unfailing h _ _
  error h := h.2

section Runs

variable {s t : Session} {sub : Substitution} {wiring : Wiring} {p q : Pipeline} {v : Visit}
  {a b : Sink}

/-- One of the builtins that every session starts with. -/
theorem runBuiltin_unfailing (h : s.Unfailing t) {builtin : Builtin} {name : String}
    (hfound : Builtin.standard.lookup name = some builtin) (args : List String)
    (stdin : Option Bytes) (out err : Sink) :
    Joint (fun e e' s t => e = e' ∧ s.Unfailing t) Session.Unfailing
      (runOn (runBuiltin builtin name args stdin out err) s)
      (runOn (runBuiltin builtin name args stdin out err) t) := by
  have hdesks : Desk.Unfailing ⟨s.scene, out.handedOut, err.handedOut⟩
      ⟨t.scene, out.handedOut, err.handedOut⟩ :=
    ⟨rfl, rfl, h.2⟩
  -- A builtin cannot tell the two desks apart, so it answers the same at both.
  have hboth := standard_coupled coupling_unfailing hfound args stdin stdin _ _ hdesks
  rw [runOn_runBuiltin, runOn_runBuiltin]
  generalize runOn (builtin args stdin) ⟨s.scene, out.handedOut, err.handedOut⟩ = r at hboth ⊢
  generalize runOn (builtin args stdin) ⟨t.scene, out.handedOut, err.handedOut⟩ = r' at hboth ⊢
  cases hboth with
  | @error e d d' states =>
      rcases states with ⟨hout, herr, hscene⟩
      have hafter : (s.withScene d.scene).Unfailing (t.withScene d'.scene) := ⟨h.1, hscene⟩
      dsimp only
      rw [hout, herr]
      refine (write_unfailing hafter _ _).bind ?_
      rintro a _ u u' - ⟨rfl, hlike⟩
      exact .ok ⟨rfl, hlike⟩
  | @ok answer _ d d' values =>
      rcases values with ⟨rfl, hout, herr, hscene⟩
      have hafter : (s.withScene d.scene).Unfailing (t.withScene d'.scene) := ⟨h.1, hscene⟩
      cases answer with
      | code n => exact .ok ⟨by rw [hout, herr], hafter⟩
      | exit n => exact .ok ⟨by rw [hout, herr], hafter⟩

/-- A stage that runs such a builtin, or nothing. -/
theorem Visit.Runs.unfailing (hrun : v.Runs sub wiring) (hstandard : v.RunsStandard sub wiring)
    (hsub : ∀ q a b u u', v.Enters sub wiring q a u → Unfailing a b u u' →
      Joint (Beside Unfailing) Session.Unfailing (runOn (sub q wiring a) u)
        (runOn (sub q wiring b) u'))
    (h : Unfailing v.err b v.before t) :
    Joint (fun e e' s t => e = e' ∧ s.Unfailing t) Session.Unfailing (v.result, v.after)
      (runOn (runStage sub wiring v.command v.input v.out b) t) := by
  apply hrun.alike likeness_unfailing hsub ?_ ?_ h
  · rintro outcome a _ u u' ⟨rfl, hlike⟩
    exact ⟨rfl, hlike⟩
  · rintro stage files a _ u u' hready hnamed ⟨rfl, hlike⟩
    rcases hstandard stage files a u hready hnamed with ⟨builtin, hfound, hbuiltin⟩
    have hstarting : (u.starting stage).Unfailing (u'.starting stage) :=
      (likeness_unfailing.noting (a := a) ⟨rfl, hlike⟩ _ _).2
    have hseen : (u.starting stage).seen = (u'.starting stage).seen :=
      Session.seen_eq_of hstarting.2.seen hstarting.1
    apply runCommand_builtin_alike hseen hstarting hfound
    intro stdin stdin' hsame
    -- The two are fed the same, so this is one builtin in two sessions.
    rw [← hsame rfl]
    apply (runBuiltin_unfailing hstarting hbuiltin _ _ _ _).map
    rintro e _ u u' ⟨rfl, hafter⟩
    exact ⟨rfl, hafter⟩

/-- A pipeline of such stages, given that its substitutions go alike. -/
theorem runWith_unfailing (h : s.Unfailing t)
    (hstandard : ∀ v ∈ visits sub wiring p s, v.RunsStandard sub wiring)
    (hsub : ∀ v ∈ visits sub wiring p s, ∀ q a b u u', v.Enters sub wiring q a u →
    Unfailing a b u u' →
      Joint (Beside Unfailing) Session.Unfailing (runOn (sub q wiring a) u)
        (runOn (sub q wiring b) u')) :
    Joint (fun r r' s t => r = r' ∧
      s.Unfailing t) Session.Unfailing (runOn (runWith sub p wiring) s)
        (runOn (runWith sub p wiring) t) := by
  have hstages : Joint (Flow.Like (fun _ => Unfailing) fun o _ => o = []) Session.Unfailing
      (runOn (runStages sub wiring p.length 0 wiring.firstInput wiring.errorSink p) s)
      (runOn (runStages sub wiring p.length 0 wiring.firstInput wiring.errorSink p) t) := by
    refine runStages_alike (I := fun x y => x = y) (P := fun o _ => o = [])
      (fun _ => likeness_unfailing) (fun _ => rfl) rfl ?_ rfl ⟨rfl, h⟩
    intro k v input b t' hv hinput hlike
    have hmem : v ∈ visits sub wiring p s := List.mem_of_getElem? hv
    have hout : v.out = wiring.outputSink (p.length - (k + 1)) := visitsFrom_output hv
    rw [← hinput, ← hout]
    apply ((visitsFrom_runs hmem).unfailing (hstandard v hmem) (hsub v hmem) hlike).imp
    rintro e _ u u' ⟨rfl, hafter⟩
    -- Neither stage sends anything away that the other keeps.
    refine ⟨rfl, [], ?_, fun _ => rfl, rfl, rfl, hafter⟩
    rw [SentBy]
    split <;> rfl
  rw [runWith_eq_map]
  apply hstages.map
  rintro f f' u u' ⟨hcode, hexit, o, rfl, houtput, herr, hlike⟩
  have hsame : f = f' := by
    cases f
    cases f'
    simp_all
  exact ⟨by rw [hsame], hlike⟩

/-- A substitution whose pipeline is such a one. -/
theorem nest_unfailing (h : Unfailing a b s t)
    (hinner : Joint (fun r r' s t => r = r' ∧ s.Unfailing t) Session.Unfailing
      (runOn (runWith sub q wiring.nested) s.enter) (runOn (runWith sub q wiring.nested) t.enter)) :
    Joint (Beside Unfailing) Session.Unfailing (runOn (nest (runWith sub) q wiring a) s)
      (runOn (nest (runWith sub) q wiring b) t) := by
  rcases h with ⟨rfl, -⟩
  have hleave : ∀ u u' : Session, u.Unfailing u' → u.leave.Unfailing u'.leave := by
    intro u u' hlike
    have hledger := congrArg Session.leave hlike.1
    exact ⟨hledger, hlike.2⟩
  rw [runOn_nest, runOn_nest]
  generalize runOn (runWith sub q wiring.nested) s.enter = r at hinner ⊢
  generalize runOn (runWith sub q wiring.nested) t.enter = r' at hinner ⊢
  cases hinner with
  | error states => exact .error (hleave _ _ states)
  | @ok result _ u u' values =>
      rcases values with ⟨rfl, hlike⟩
      -- What the inner line reported is passed on, and both sides write it alike.
      have hpass : Joint Unfailing Session.Unfailing (runOn (passOn a result.stderr) u.leave)
          (runOn (passOn a result.stderr) u'.leave) := by
        unfold passOn
        split
        · exact .ok ⟨rfl, hleave _ _ hlike⟩
        · exact write_unfailing (hleave _ _ hlike) _ _
      apply hpass.bind
      rintro a' _ _ _ - hsinks
      exact .ok ⟨rfl, hsinks⟩

/-- A run of which all commands are such builtins. -/
theorem runWithin_unfailing {levels : Nat} (h : s.Unfailing t)
    (hstandard : ∀ rest w v, Occurs levels p wiring s rest w v →
    v.RunsStandard (substitutionWithin rest) w) :
    Joint (fun r r' s t => r = r' ∧
      s.Unfailing t) Session.Unfailing (runOn (runWithin levels p wiring) s)
        (runOn (runWithin levels p wiring) t) := by
  -- By the levels that are left: the stages inside a substitution are stages of the run around it.
  induction levels generalizing p wiring s t with
  | zero =>
      rw [runWithin_eq_runWith]
      apply runWith_unfailing h (fun v hv => hstandard _ _ v (.here hv))
      intro v _ q a b u u' _ hlike
      exact refuse_alike likeness_unfailing q wiring wiring hlike
  | succ levels ih =>
      rw [runWithin_eq_runWith]
      apply runWith_unfailing h (fun v hv => hstandard _ _ v (.here hv))
      intro v hv q a b u u' hentered hlike
      have henter : u.enter.Unfailing u'.enter := by
        have hledger := congrArg Session.enter hlike.2.1
        exact ⟨hledger, hlike.2.2⟩
      rw [substitutionWithin, runWithin_eq_runWith]
      apply nest_unfailing hlike
      rw [← runWithin_eq_runWith]
      exact ih henter fun rest w v' hv' => hstandard rest w v' (.inside hv hentered hv')

end Runs

/-- A line that runs nothing but builtins leaves an error output that takes every write as it was in
this. -/
theorem run_takesAll {s : Session} {line : String} {wiring : Wiring}
    (h : s.scene.host.stderr.TakesAll) (hstandard : ∀ rest w v, s.Reaches line wiring rest w v →
    v.RunsStandard (substitutionWithin rest) w) :
    (runOn (Session.run line wiring) s).2.scene.host.stderr.TakesAll := by
  cases hparse : Pipeline.parse line with
  | error e =>
      rw [runOn_run_of_malformed hparse]
      exact h
  | ok p =>
      rw [runOn_run_eq_runWithin hparse]
      -- The run beside itself: that the two are alike is no news, that the output takes every write
      -- is.
      have hself : (s.recording line).Unfailing (s.recording line) := ⟨rfl, rfl, rfl, h⟩
      have hboth := runWithin_unfailing hself fun rest w v hv => hstandard rest w v ⟨p, hparse, hv⟩
      generalize runOn (runWithin s.room p wiring) (s.recording line) = r at hboth ⊢
      cases hboth with
      | ok values => exact values.2.2.takes
      | error states => exact states.2.takes

end LineShell
