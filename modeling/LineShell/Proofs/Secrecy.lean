import LineShell.Proofs.Likeness
import LineShell.Proofs.LogBook

/-!
# Secrecy — a hidden variable leaves no trace in the log

Two sessions differ in the value of one variable, whose name the policy hides. A pipeline that only
prints, run in both with all output kept, may well print different texts, and these may go into
further words. But the two runs record the same events, one by one, and leave the sessions different
in that variable alone.

* `Session.DifferOnlyIn` — sessions that differ in one variable;
* `Veiled` — two runs side by side: the same events so far, and no other difference;
* `Harmless` — pipelines that only print, at every level;
* `expandWord_veiled`, `runStage_veiled`, `runStages_veiled` — words, stages and pipelines side by
  side;
* `hidden_variable_leaves_no_trace` — runs in general.
-/

namespace LineShell

/-! ## Sessions that differ in one variable -/

/-- The environments have the same variables, but perhaps for one name. -/
def Environment.AgreeBut (hidden : String) (e e' : Environment) : Prop :=
  ∀ name, name ≠ hidden → e.standing name = e'.standing name

namespace Session

def masked (s : Session) : Session :=
  s.withScene { s.scene with env := {}, records := [] }

/-- Apart from what they have recorded, the sessions differ in one variable at most. -/
structure DifferOnlyIn (hidden : String) (s t : Session) : Prop where
  rest : s.masked = t.masked
  env : s.scene.env.AgreeBut hidden t.scene.env

end Session

/-- Two runs side by side, the first started from `a` and the second from `b`. The variables are as
they were, and the same events were recorded in both. -/
structure Veiled (a b s t : Session) : Prop where
  rest : s.masked = t.masked
  table : s.table = a.table
  policy : s.policy = a.policy
  first : s.scene.env = a.scene.env
  second : t.scene.env = b.scene.env
  events : ∃ events, s.scene.journal = a.scene.journal ++ events ∧
    t.scene.journal = b.scene.journal ++ events

namespace Veiled

variable {hidden : String} {a b s t : Session}

/-- Sessions that agree up to the hidden value start veiled. -/
theorem start (h : a.masked = b.masked) : Veiled a b a b where
  rest := h
  table := rfl
  policy := rfl
  first := rfl
  second := rfl
  events := ⟨[], by simp, by simp⟩

/-- The same event may be recorded in both runs. -/
theorem noting (h : Veiled a b s t) (event : Log.Event) :
    Veiled a b (s.noting event) (t.noting event) where
  rest := by
    have hrest : (s.noting event).masked = (t.noting event).masked := h.rest
    exact hrest
  table := h.table
  policy := h.policy
  first := h.first
  second := h.second
  events := by
    rcases h.events with ⟨events, hs, ht⟩
    refine ⟨events ++ [event], ?_, ?_⟩
    · rw [← List.append_assoc, ← hs]
      exact s.scene.journal_noting event
    · rw [← List.append_assoc, ← ht]
      exact t.scene.journal_noting event

/-- A change that concerns neither the scene nor the builtins and the policy may be made in both
runs. -/
theorem change {f : Session → Session} (h : Veiled a b s t) (hscene : ∀ s, (f s).scene = s.scene)
    (htable : ∀ s, (f s).table = s.table) (hpolicy : ∀ s, (f s).policy = s.policy)
    (hmasked : ∀ s, (f s).masked = f s.masked) : Veiled a b (f s) (f t) where
  rest := by rw [hmasked, hmasked, h.rest]
  table := by rw [htable, h.table]
  policy := by rw [hpolicy, h.policy]
  first := by rw [hscene, h.first]
  second := by rw [hscene, h.second]
  events := by
    rw [hscene, hscene]
    exact h.events

/-- Entering a level keeps the veil. -/
theorem enter (h : Veiled a b s t) : Veiled a b s.enter t.enter :=
  h.change (fun _ => rfl) (fun _ => rfl) (fun _ => rfl) fun _ => rfl

/-- Leaving a level keeps the veil. -/
theorem leave (h : Veiled a b s t) : Veiled a b s.leave t.leave :=
  h.change (fun _ => rfl) (fun _ => rfl) (fun _ => rfl) fun _ => rfl

theorem flag (h : Veiled a b s t) (failed : Bool) :
    Veiled a b { s with expansionFailed := failed } { t with expansionFailed := failed } :=
  @change a b s t (fun s => { s with expansionFailed := failed }) h (fun _ => rfl)
    (fun _ => rfl) (fun _ => rfl) fun _ => rfl

/-- The flag does not show the hidden value. -/
theorem flag_eq (h : Veiled a b s t) : s.expansionFailed = t.expansionFailed := by
  have hflag := congrArg Session.expansionFailed h.rest
  exact hflag

theorem table_eq (h : Veiled a b s t) : t.table = s.table := by
  have htable := congrArg Session.table h.rest
  exact htable.symm

theorem room_eq (h : Veiled a b s t) : t.room = s.room := by
  have hroom := congrArg Session.room h.rest
  exact hroom.symm

/-- The log shows the same for every variable: the hidden one is not shown, and the others have the
same value. -/
theorem shown_eq (h : Veiled a b s t) (hagree : a.scene.env.AgreeBut hidden b.scene.env)
    (hhides : a.policy.hidesName hidden = true) (name : String) : s.shown name = t.shown name := by
  have hpolicy : t.policy = s.policy := (congrArg Session.policy h.rest).symm
  rw [Session.shown, Session.shown, hpolicy, h.policy]
  by_cases hname : name = hidden
  · rw [hname, Log.Policy.redactVariable, Log.Policy.redactVariable, if_pos hhides, if_pos hhides]
  · have hvalue : a.scene.env.get? name = b.scene.env.get? name :=
      congrArg Standing.value (hagree name hname)
    rw [h.first, h.second, hvalue]

end Veiled

/-! ## Sinks in memory -/

/-- The sink keeps what is written to it. -/
def Sink.Kept (sink : Sink) : Prop :=
  ∃ bytes, sink = .buffer bytes

namespace Sink.Kept

variable {sink : Sink}

/-- A kept sink takes every write, and the session stays as it is. -/
theorem write (h : sink.Kept) (bs : Bytes) (s : Session) :
    ∃ sink', sink'.Kept ∧ runOn (Exec.write sink bs) s = (.ok sink', s) := by
  rcases h with ⟨bytes, rfl⟩
  exact ⟨_, ⟨_, rfl⟩, runOn_write_buffer bytes bs s⟩

/-- A kept sink takes what is passed on, and the session stays as it is. -/
theorem passOn (h : sink.Kept) (text : String) (s : Session) :
    ∃ sink', sink'.Kept ∧ runOn (LineShell.passOn sink text) s = (.ok sink', s) := by
  unfold LineShell.passOn
  split
  · exact ⟨sink, h, rfl⟩
  · exact h.write _ s

/-- A kept sink stays kept with what a builtin wrote. -/
theorem receive (h : sink.Kept) (written : Sink) : (sink.receive written).Kept := by
  rcases h with ⟨bytes, rfl⟩
  exact ⟨_, rfl⟩

end Sink.Kept

/-! ## Words -/

/-- No session: the runs do not end in an error. -/
def Never (_ _ : Session) : Prop :=
  False

/-- The two runs go on, with error sinks in memory. -/
def Onward (a b : Session) (err err' : Sink) (s t : Session) : Prop :=
  err.Kept ∧ err'.Kept ∧ Veiled a b s t

/-- The pipeline in a word becomes text in both runs, if all output is kept. -/
def Substitution.Veils (sub : Substitution) (a b : Session) (q : Pipeline) : Prop :=
  ∀ err err' s t, Onward a b err err' s t →
    Joint (fun x y => Onward a b x.2 y.2) Never (runOn (sub q .captured err) s)
      (runOn (sub q .captured err') t)

section Words

variable {hidden : String} {a b s t : Session} {err err' : Sink} {sub : Substitution}

/-- A refusal into a kept sink only puts the flag up. -/
theorem runOn_refuse_of_kept (h : err.Kept) (q : Pipeline) (wiring : Wiring) (s : Session) :
    ∃ sink, sink.Kept ∧
      runOn (refuse q wiring err) s = (.ok ("", sink), { s with expansionFailed := true }) := by
  rcases h.write (Utf8.encode (_ ++ "\n")) s with ⟨sink, hsink, hreport⟩
  refine ⟨sink, hsink, ?_⟩
  rw [refuse, runOn_bind_of_ok (runOn_get s)]
  exact runOn_bind_of_ok hreport

/-- A refusal does not show the hidden value. -/
theorem refuse_veils (q : Pipeline) : Substitution.Veils refuse a b q := by
  intro err err' s t h
  rcases runOn_refuse_of_kept h.1 q .captured s with ⟨sink, hsink, hrun⟩
  rcases runOn_refuse_of_kept h.2.1 q .captured t with ⟨sink', hsink', hrun'⟩
  rw [hrun, hrun']
  exact .ok ⟨hsink, hsink', h.2.2.flag true⟩

/-- What a nested pipeline printed may differ, but it becomes a text in both runs. -/
theorem nest_veils {run : Pipeline → Wiring → Exec Result} {q : Pipeline}
    (hrun : ∀ s t, Veiled a b s t →
      Joint (fun _ _ => Veiled a b) Never (runOn (run q .captured) s) (runOn (run q .captured) t)) :
    Substitution.Veils (nest run) a b q := by
  intro err err' s t h
  rcases h with ⟨hkept, hkept', hveiled⟩
  have hinner := hrun s.enter t.enter hveiled.enter
  rw [runOn_nest, runOn_nest, show Wiring.captured.nested = .captured from rfl]
  generalize runOn (run q .captured) s.enter = r at hinner ⊢
  generalize runOn (run q .captured) t.enter = r' at hinner ⊢
  cases hinner with
  | error states => exact states.elim
  | @ok result result' u u' values =>
      rcases hkept.passOn result.stderr u.leave with ⟨sink, hsink, hpass⟩
      rcases hkept'.passOn result'.stderr u'.leave with ⟨sink', hsink', hpass'⟩
      dsimp only
      rw [runOn_bind_of_ok hpass, runOn_bind_of_ok hpass']
      exact .ok ⟨hsink, hsink', values.leave⟩

/-- A reference gives its value, or nothing, and notes what may be shown. -/
theorem runOn_expandPart_var (name : String) (wiring : Wiring) (err : Sink) (s : Session) :
    runOn (expandPart sub wiring err (.var name)) s =
      (.ok ((s.scene.env.get? name).getD "", err),
        s.noting (.expandedVariable name (s.shown name))) := rfl

/-- A word without variables and substitutions stands for its text, and nothing is recorded. -/
theorem expandWord_literal {w : Word} {text : String} (h : w.literal? = some text) (wiring : Wiring)
    (err : Sink) :
    expandWord sub wiring err w = pure (text, err) := by
  induction w generalizing text with
  | nil =>
      cases h
      rfl
  | cons part rest ih =>
      cases part with
      | text s =>
          rcases Option.map_eq_some_iff.1 h with ⟨tail, htail, rfl⟩
          rw [expandWord, expandPart, pure_bind]
          dsimp only
          rw [ih htail, pure_bind]
      | var name => cases h
      | substitution q => cases h

variable (hagree : a.scene.env.AgreeBut hidden b.scene.env)
  (hhides : a.policy.hidesName hidden = true)
include hagree hhides

/-- Words side by side: the texts may differ, the events do not. -/
theorem expandWord_veiled {w : Word} (hsub : ∀ q, .substitution q ∈ w → sub.Veils a b q)
    (h : Onward a b err err' s t) :
    Joint (fun x y => Onward a b x.2 y.2) Never (runOn (expandWord sub .captured err w) s)
      (runOn (expandWord sub .captured err' w) t) := by
  induction w generalizing err err' s t with
  | nil => exact .ok h
  | cons part rest ih =>
      have hpart : Joint (fun x y => Onward a b x.2 y.2) Never
        (runOn (expandPart sub .captured err part) s)
          (runOn (expandPart sub .captured err' part) t) := by
        cases part with
        | text s => exact .ok h
        | var name =>
            -- The value is looked up in each session, but what is recorded is what the log shows.
            have hnoting := h.2.2.noting (.expandedVariable name (s.shown name))
            have hshown := h.2.2.shown_eq hagree hhides name
            rw [runOn_expandPart_var, runOn_expandPart_var, ← hshown]
            exact .ok ⟨h.1, h.2.1, hnoting⟩
        | substitution q => exact hsub q List.mem_cons_self err err' s t h
      refine hpart.bind fun x y s' t' _ hnext => ?_
      refine (ih (fun q hq => hsub q (List.mem_cons_of_mem _ hq)) hnext).bind fun x' y' s'' t'' _
        hlast => ?_
      exact .ok hlast

/-- As many texts as there are words, in both runs. -/
theorem expandWords_veiled {ws : List Word}
    (hsub : ∀ q, .substitution q ∈ ws.flatten → sub.Veils a b q) (h : Onward a b err err' s t) :
    Joint (fun x y s t => x.1.length = y.1.length ∧ Onward a b x.2 y.2 s t) Never
      (runOn (expandWords sub .captured err ws) s)
        (runOn (expandWords sub .captured err' ws) t) := by
  induction ws generalizing err err' s t with
  | nil => exact .ok ⟨rfl, h⟩
  | cons w rest ih =>
      rw [List.flatten_cons] at hsub
      have hword := expandWord_veiled hagree hhides (fun q hq => hsub q (List.mem_append_left _ hq))
        h
      refine hword.bind fun x y s' t' _ hnext => ?_
      have hrest := ih (fun q hq => hsub q (List.mem_append_right _ hq)) hnext
      refine hrest.bind fun x' y' s'' t'' _ hlast => ?_
      exact .ok ⟨congrArg Nat.succ hlast.1, hlast.2⟩

/-- A stage without redirections whose name is a text keeps that name. -/
theorem expandStage_veiled {c : Command} {name : String} (hname : c.name.literal? = some name)
    (hbare : c.redirections = []) (hsub : ∀ q, .substitution q ∈ c.parts → sub.Veils a b q)
    (h : Onward a b err err' s t) :
    Joint (fun x y s t => ∃ args args', x.1 = ⟨name, args, []⟩ ∧ y.1 = ⟨name, args', []⟩ ∧
        args.length = args'.length ∧ Onward a b x.2 y.2 s t) Never
      (runOn (expandStage sub .captured err c) s) (runOn (expandStage sub .captured err' c) t) := by
  have hargs : ∀ q, .substitution q ∈ c.args.flatten → sub.Veils a b q := by
    intro q hq
    refine hsub q ?_
    simp only [Stage.parts, List.mem_append]
    exact .inl (.inr hq)
  rw [expandStage, expandStage, expandWord_literal hname, expandWord_literal hname, pure_bind,
    pure_bind, hbare]
  refine (expandWords_veiled hagree hhides hargs h).bind fun x y s' t' _ hnext => ?_
  exact .ok ⟨x.1, y.1, rfl, rfl, hnext.1, hnext.2⟩

end Words

/-! ## Commands that only print -/

/-- The builtins that print and do nothing else, whatever their arguments are. -/
def harmlessNames : List String :=
  ["echo", "true", "false", "pwd", "env"]

theorem isEmpty_of_harmless : ∀ name ∈ harmlessNames, name.isEmpty = false := by
  decide

def harmlessCode (name : String) : Int :=
  if name = "false" then 1 else 0

/-- Pipelines of such builtins, named by plain text and without redirections, at every level. -/
inductive Harmless : Pipeline → Prop where
  | intro {p : Pipeline} (names : ∀ c ∈ p, ∃ name ∈ harmlessNames, Word.literal? c.name = some name)
      (bare : ∀ c ∈ p, c.redirections = [])
      (inner : ∀ c ∈ p, ∀ q, Part.substitution q ∈ Stage.parts c → Harmless q) : Harmless p

section Commands

variable {s : Session} {out err : Sink}

/-- With its output in memory such a builtin changes nothing, and its status depends on its name
alone. -/
theorem harmless_builtin {name : String} (h : name ∈ harmlessNames) :
    ∃ b, Builtin.standard.lookup name = some b ∧ ∀ args stdin (d : Desk), d.out.Kept →
      ∃ out, runOn (b args stdin) d = (.ok (.code (harmlessCode name)), { d with out }) := by
  simp only [harmlessNames, List.mem_cons, List.not_mem_nil, or_false] at h
  rcases h with rfl | rfl | rfl | rfl | rfl
  · refine ⟨Builtin.echo, rfl, ?_⟩
    rintro args stdin ⟨scene, _, err⟩ ⟨bytes, rfl⟩
    exact ⟨_, rfl⟩
  · refine ⟨Builtin.succeed, rfl, ?_⟩
    intro args stdin d _
    exact ⟨d.out, rfl⟩
  · refine ⟨Builtin.fail, rfl, ?_⟩
    intro args stdin d _
    exact ⟨d.out, rfl⟩
  · refine ⟨Builtin.pwd, rfl, ?_⟩
    rintro args stdin ⟨scene, _, err⟩ ⟨bytes, rfl⟩
    exact ⟨_, rfl⟩
  · refine ⟨Builtin.env, rfl, ?_⟩
    rintro args stdin ⟨scene, _, err⟩ ⟨bytes, rfl⟩
    exact ⟨_, rfl⟩

/-- So a stage that runs it changes nothing either. -/
theorem runOn_runCommand_of_harmless {name : String} (hname : name ∈ harmlessNames)
    (htable : s.table = Builtin.standard) (hout : out.Kept) (herr : err.Kept) (args : List String)
    (input : Input) :
    ∃ out' err', err'.Kept ∧ runOn (runCommand ⟨name, args, []⟩ {} input out err) s =
      (.ok ⟨.finished (harmlessCode name), out', err'⟩, s) := by
  rcases harmless_builtin hname with ⟨b, hlookup, hb⟩
  have hfound : s.table.lookup name = some b := by
    rw [htable]
    exact hlookup
  have hin : ∃ stdin, runOn (builtinInput none input) s = (.ok stdin, s) := by
    cases input <;> exact ⟨_, rfl⟩
  rcases hin with ⟨stdin, hin⟩
  have hhanded : out.handedOut.Kept := by
    rcases hout with ⟨bytes, rfl⟩
    exact ⟨[], rfl⟩
  rcases hb args stdin ⟨s.scene, out.handedOut, err.handedOut⟩ hhanded with ⟨written, hrun⟩
  have hbuiltin : runOn (runBuiltin b name args stdin out err) s =
      (.ok ⟨.finished (harmlessCode name), out.receive written, err.receive err.handedOut⟩, s) := by
    rw [runOn_runBuiltin, hrun]
    rfl
  refine ⟨out.receive written, err.receive err.handedOut, herr.receive _, ?_⟩
  -- Without redirections the stage uses the sinks that it is given.
  have hcommand : runOn (runCommand ⟨name, args, []⟩ {} input out err) s =
      runOn (StageFiles.settle {} out err <$> runBuiltin b name args stdin out err) s :=
    runOn_runCommand_of_builtin hfound hin
  rw [hcommand, runOn_map, hbuiltin]
  rfl

end Commands

/-! ## Runs -/

section Runs

variable {hidden : String} {a b s t : Session} {err err' : Sink} {sub : Substitution} {p : Pipeline}
  (hagree : a.scene.env.AgreeBut hidden b.scene.env) (hhides : a.policy.hidesName hidden = true)
  (htable : a.table = Builtin.standard)
include hagree hhides htable

/-- One stage side by side: it ends alike, whatever it printed. -/
theorem runStage_veiled {c : Command} {name : String} {out out' : Sink}
    (hname : c.name.literal? = some name) (hharmless : name ∈ harmlessNames)
    (hbare : c.redirections = []) (hsub : ∀ q, .substitution q ∈ c.parts → sub.Veils a b q)
    (input input' : Input) (hout : out.Kept) (hout' : out'.Kept) (h : Onward a b err err' s t) :
    Joint (fun e e' s t => e.outcome = e'.outcome ∧ Onward a b e.err e'.err s t) Never
      (runOn (runStage sub .captured c input out err) s)
        (runOn (runStage sub .captured c input' out' err') t) := by
  refine (expandStage_veiled hagree hhides hname hbare hsub h).bind ?_
  rintro ⟨_, err⟩ ⟨_, err'⟩ s t - ⟨args, args', rfl, rfl, hargs, hkept, hkept', hveiled⟩
  dsimp only at hkept hkept' ⊢
  rw [runOn_bind_of_ok (runOn_get s), runOn_bind_of_ok (runOn_get t), ← hveiled.flag_eq]
  cases hflag : s.expansionFailed with
  | true =>
      -- The stage is skipped in both runs, since an expansion failed in both.
      simp only [if_true]
      exact .ok ⟨rfl, hkept, hkept', hveiled.flag false⟩
  | false =>
      have hnamed : name.isEmpty = false := isEmpty_of_harmless name hharmless
      simp only [Bool.false_eq_true, if_false, openAll, pure_bind, hnamed, List.length_nil]
      rw [runOn_bind_of_ok (runOn_note _ s), runOn_bind_of_ok (runOn_note _ t), ← hargs]
      have hnoting := hveiled.noting (.runningCommand (Log.sanitize name) args.length 0)
      have hstandard := hnoting.table.trans htable
      rcases runOn_runCommand_of_harmless hharmless hstandard hout hkept args input
        with ⟨o, e, he, hrun⟩
      rcases runOn_runCommand_of_harmless hharmless (hnoting.table_eq.trans hstandard) hout' hkept'
        args' input' with
        ⟨o', e', he', hrun'⟩
      rw [hrun, hrun']
      exact .ok ⟨rfl, he, he', hnoting⟩

/-- The stages of a pipeline side by side. -/
theorem runStages_veiled (hsub : ∀ q, Harmless q → sub.Veils a b q) (hp : Harmless p)
    {total i : Nat} {input input' : Input} (h : Onward a b err err' s t) :
    Joint (fun f f' s t => f.code = f'.code ∧ f.exit = f'.exit ∧ Onward a b f.err f'.err s t) Never
      (runOn (runStages sub .captured total i input err p) s)
      (runOn (runStages sub .captured total i input' err' p) t) := by
  induction p generalizing i input input' err err' s t with
  | nil => exact .ok ⟨rfl, rfl, h⟩
  | cons c rest ih =>
      rcases hp with ⟨names, bare, inner⟩
      rcases names c List.mem_cons_self with ⟨name, hharmless, hname⟩
      have hrest : Harmless rest := by
        refine .intro ?_ ?_ ?_
        · exact fun c' hc' => names c' (List.mem_cons_of_mem c hc')
        · exact fun c' hc' => bare c' (List.mem_cons_of_mem c hc')
        · exact fun c' hc' => inner c' (List.mem_cons_of_mem c hc')
      have hmemory : Sink.memory.Kept := ⟨[], rfl⟩
      have hstart : Onward a b err err' (s.noting (.stageStarting i total))
        (t.noting (.stageStarting i total)) :=
        ⟨h.1, h.2.1, h.2.2.noting _⟩
      -- The stage runs a builtin that tells nothing, so both runs go on with its outcome.
      have hstage := runStage_veiled hagree hhides htable hname hharmless
        (bare c List.mem_cons_self) (fun q hq => hsub q (inner c List.mem_cons_self q hq)) input
          input' hmemory hmemory hstart
      rw [runStages, runStages, outputSink_eq, runOn_bind_of_ok (runOn_note _ s),
        runOn_bind_of_ok (runOn_note _ t)]
      rw [show Wiring.captured.outputSink rest.length = .memory by
        simp [Wiring.outputSink, Wiring.captured]]
      refine hstage.bind ?_
      rintro ⟨outcome, out, err⟩ ⟨outcome', out', err'⟩ s t - ⟨houtcome, hkept, hkept', hveiled⟩
      dsimp only at houtcome hkept hkept'
      subst houtcome
      rw [runOn_bind_of_ok (runOn_note _ s), runOn_bind_of_ok (runOn_note _ t)]
      have hfinish := hveiled.noting (.stageFinished i outcome)
      cases outcome with
      | exited code => exact .ok ⟨rfl, rfl, hkept, hkept', hfinish⟩
      | aborted code => exact .ok ⟨rfl, rfl, hkept, hkept', hfinish⟩
      | finished code =>
          dsimp only
          split
          · exact .ok ⟨rfl, rfl, hkept, hkept', hfinish⟩
          · exact ih hrest ⟨hkept, hkept', hfinish⟩

/-- A pipeline side by side, given what is nested in it. -/
theorem runWith_veiled (hsub : ∀ q, Harmless q → sub.Veils a b q) (hp : Harmless p)
    (h : Veiled a b s t) :
    Joint (fun r r' s t => r.code = r'.code ∧ r.exit = r'.exit ∧ Veiled a b s t) Never
      (runOn (runWith sub p .captured) s) (runOn (runWith sub p .captured) t) := by
  have hmemory : Sink.memory.Kept := ⟨[], rfl⟩
  have hstages := @runStages_veiled hidden a b s t .memory .memory sub p hagree hhides htable hsub
    hp p.length 0 .empty .empty ⟨hmemory, hmemory, h⟩
  refine hstages.bind fun f f' s' t' _ hlike => .ok ?_
  exact ⟨hlike.1, hlike.2.1, hlike.2.2.2.2⟩

/-- With any number of levels. The texts that differ are made and used up inside. -/
theorem runWithin_veiled (levels : Nat) (hp : Harmless p) (h : Veiled a b s t) :
    Joint (fun r r' s t => r.code = r'.code ∧ r.exit = r'.exit ∧ Veiled a b s t) Never
      (runOn (runWithin levels p .captured) s) (runOn (runWithin levels p .captured) t) := by
  induction levels generalizing p s t with
  | zero => exact runWith_veiled hagree hhides htable (fun q _ => refuse_veils q) hp h
  | succ levels ih =>
      refine runWith_veiled hagree hhides htable (fun q hq => nest_veils fun s t hst => ?_) hp h
      exact (ih hq hst).imp fun _ _ _ _ hlike => hlike.2.2

end Runs

/-- Two sessions with the builtins that every session starts with, which differ in one variable that
the policy hides. A pipeline that only prints, run in both with all output kept, comes to its end in
both, with the same status. Both runs record the same events in the same order, leave the variables
as they were, and leave sessions that differ in that variable alone. -/
theorem hidden_variable_leaves_no_trace (hidden : String) (s t : Session) (p : Pipeline)
    (hdiffer : s.DifferOnlyIn hidden t) (htable : s.table = Builtin.standard)
    (hhides : s.policy.hidesName hidden = true) (hp : Harmless p) :
    ∃ r r' s' t' events,
      runOn (Session.execute p .captured) s = (.ok r, s') ∧
      runOn (Session.execute p .captured) t = (.ok r', t') ∧
      r.code = r'.code ∧ r.exit = r'.exit ∧
      s'.scene.journal = s.scene.journal ++ events ∧ t'.scene.journal = t.scene.journal ++ events ∧
      s'.scene.env = s.scene.env ∧ t'.scene.env = t.scene.env ∧ s'.DifferOnlyIn hidden t' := by
  have hstart : Veiled s t s t := .start hdiffer.rest
  have hruns := runWithin_veiled hdiffer.env hhides htable s.room hp hstart
  have hs : runOn (Session.execute p .captured) s = runOn (runWithin s.room p .captured) s := by
    rw [Session.execute, runOn_bind_of_ok (runOn_get s)]
  have ht : runOn (Session.execute p .captured) t = runOn (runWithin s.room p .captured) t := by
    rw [Session.execute, runOn_bind_of_ok (runOn_get t), hstart.room_eq]
  rw [hs, ht]
  generalize runOn (runWithin s.room p .captured) s = x at hruns ⊢
  generalize runOn (runWithin s.room p .captured) t = y at hruns ⊢
  cases hruns with
  | error states => exact states.elim
  | @ok r r' s' t' values =>
      rcases values with ⟨hcode, hexit, hveiled⟩
      rcases hveiled.events with ⟨events, hjournal, hjournal'⟩
      refine ⟨r, r', s', t', events, rfl, rfl, hcode, hexit, hjournal, hjournal', hveiled.first,
        hveiled.second, ?_⟩
      refine ⟨hveiled.rest, ?_⟩
      rw [hveiled.first, hveiled.second]
      exact hdiffer.env

/-- A session in which `API_TOKEN` has the given value. -/
def tokenSession (value : String) : Session :=
  { scene := { env := Environment.set {} "API_TOKEN" value } }

theorem tokenSession_differOnlyIn (value value' : String) :
    (tokenSession value).DifferOnlyIn "API_TOKEN" (tokenSession value') where
  rest := rfl
  env := by
    intro name hname
    simp only [tokenSession, Environment.standing_set, if_neg hname.symm]

/-- The line `echo a$API_TOKEN | env`. -/
def tokenLine : Pipeline :=
  [⟨[.text "echo"], [[.text "a", .var "API_TOKEN"]], []⟩, ⟨[.text "env"], [], []⟩]

/-- The line `echo $API_TOKEN $(echo a$API_TOKEN | env) | false`. -/
def nestedTokenLine : Pipeline :=
  [⟨[.text "echo"], [[.var "API_TOKEN"], [.substitution tokenLine]], []⟩, ⟨[.text "false"], [], []⟩]

theorem tokenLine_harmless : Harmless tokenLine := by
  refine .intro ?_ ?_ ?_
  · simp [tokenLine, harmlessNames, Word.literal?]
  · simp [tokenLine]
  · simp [tokenLine, Stage.parts]

theorem nestedTokenLine_harmless : Harmless nestedTokenLine := by
  refine .intro ?_ ?_ ?_
  · simp [nestedTokenLine, harmlessNames, Word.literal?]
  · simp [nestedTokenLine]
  · simpa [nestedTokenLine, Stage.parts] using tokenLine_harmless

/-- The token goes through a substitution and two pipes, and the log is the same for each of two
tokens. -/
theorem token_leaves_no_trace :
    (tokenSession "one").DifferOnlyIn "API_TOKEN" (tokenSession "two") ∧
      (tokenSession "one").policy.hidesName "API_TOKEN" = true ∧ Harmless nestedTokenLine ∧
      ∃ r r' s' t' events,
        runOn (Session.execute nestedTokenLine .captured) (tokenSession "one") = (.ok r, s') ∧
        runOn (Session.execute nestedTokenLine .captured) (tokenSession "two") = (.ok r', t') ∧
        r.code = r'.code ∧ r.exit = r'.exit ∧
        s'.scene.journal = [] ++ events ∧ t'.scene.journal = [] ++ events ∧
        s'.scene.env = (tokenSession "one").scene.env ∧
          t'.scene.env = (tokenSession "two").scene.env ∧
        s'.DifferOnlyIn "API_TOKEN" t' := by
  have hdiffer := tokenSession_differOnlyIn "one" "two"
  have hhides : (tokenSession "one").policy.hidesName "API_TOKEN" = true := by decide +kernel
  refine ⟨hdiffer, hhides, nestedTokenLine_harmless, ?_⟩
  exact hidden_variable_leaves_no_trace "API_TOKEN" _ _ nestedTokenLine hdiffer rfl hhides
    nestedTokenLine_harmless

end LineShell
