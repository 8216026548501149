import LineShell.Proofs.Visits

/-!
# Likeness — two runs side by side

The same commands can be run twice, in sessions that differ in things that commands do not see: the
journal, the number of launches, and what the output streams of the process have taken. This file
says what it takes for two such runs to go alike, step by step from words to pipelines. Which sinks
correspond to each other, and which commands behave alike, is left open.

* `Joint` — two computations end with corresponding values, or with the same error;
* `Session.seen` — what commands see of a session;
* `Likeness` — what a correspondence of sinks and sessions must allow for;
* `expandStage_alike`, `openAll_alike` — expansion and opening;
* `Visit.Runs.alike` — one stage;
* `runStages_alike` — the stages of a pipeline.
-/

namespace LineShell

/-! ## Two computations -/

section Joint

variable {ε α β γ δ σ τ : Type} {Q : α → β → σ → τ → Prop} {E : σ → τ → Prop}

/-- Two computations end with values and states that correspond to each other, or with the same
error. -/
inductive Joint (Q : α → β → σ → τ → Prop) (E : σ → τ → Prop) :
    Except ε α × σ → Except ε β × τ → Prop where
  | ok {a : α} {b : β} {s : σ} {t : τ} (values : Q a b s t) : Joint Q E (.ok a, s) (.ok b, t)
  | error {e : ε} {s : σ} {t : τ} (states : E s t) : Joint Q E (.error e, s) (.error e, t)

namespace Joint

variable {Q' : γ → δ → σ → τ → Prop} {x : ExceptT ε (StateM σ) α} {y : ExceptT ε (StateM τ) β}
  {f : α → ExceptT ε (StateM σ) γ} {g : β → ExceptT ε (StateM τ) δ} {s : σ} {t : τ}

/-- What comes next may rely on how the first computation went. -/
theorem bind (hx : Joint Q E (runOn x s) (runOn y t))
    (hf : ∀ a b s' t', runOn x s = (.ok a, s') → Q a b s' t' →
      Joint Q' E (runOn (f a) s') (runOn (g b) t')) :
    Joint Q' E (runOn (x >>= f) s) (runOn (y >>= g) t) := by
  rw [runOn_bind, runOn_bind]
  generalize hr : runOn x s = r at hx
  generalize runOn y t = r' at hx
  cases hx with
  | ok values => exact hf _ _ _ _ hr values
  | error states => exact .error states

theorem map {f : α → γ} {g : β → δ} (hx : Joint Q E (runOn x s) (runOn y t))
    (hf : ∀ a b s' t', Q a b s' t' → Q' (f a) (g b) s' t') :
    Joint Q' E (runOn (f <$> x) s) (runOn (g <$> y) t) := by
  rw [map_eq_pure_bind, map_eq_pure_bind]
  exact hx.bind fun a b s' t' _ h => .ok (hf a b s' t' h)

theorem imp {Q' : α → β → σ → τ → Prop} {r : Except ε α × σ} {r' : Except ε β × τ}
    (h : Joint Q E r r') (hQ : ∀ a b s t, Q a b s t → Q' a b s t) : Joint Q' E r r' := by
  cases h with
  | ok values => exact .ok (hQ _ _ _ _ values)
  | error states => exact .error states

/-- A computation that ends well takes the other one with it. -/
theorem of_ok {a : α} {r : Except ε β × τ} (h : Joint Q E ((.ok a : Except ε α), s) r) :
    ∃ b t, r = (.ok b, t) ∧ Q a b s t := by
  cases h with
  | ok values => exact ⟨_, _, rfl, values⟩

/-- So does one that ends in an error. -/
theorem of_error {e : ε} {r : Except ε β × τ} (h : Joint Q E ((.error e : Except ε α), s) r) :
    ∃ t, r = (.error e, t) ∧ E s t := by
  cases h with
  | error states => exact ⟨_, rfl, states⟩

end Joint

end Joint

/-! ## What commands see -/

/-- What commands see of a scene: all but the journal and the output streams of the process. -/
def Scene.seen (s : Scene) : Scene :=
  { s with records := [], host := { s.host with stdout := {}, stderr := {} } }

def Scene.outlets (s : Scene) : Outlet × Outlet :=
  (s.host.stdout, s.host.stderr)

namespace Session

/-- What commands see of a session. -/
def seen (s : Session) : Session :=
  { s with scene := s.scene.seen, launches := 0 }

/-- What recording, opening and the flag of a line do not touch: the output streams of the process,
the programs and the number of launches. -/
def aside (s : Session) : (Outlet × Outlet) × Programs × Nat :=
  (s.scene.outlets, s.programs, s.launches)

end Session

section Seen

variable {x y : Scene} {s t : Session}

theorem Scene.env_eq_of_seen_eq (h : x.seen = y.seen) : x.env = y.env := by
  have henv := congrArg Scene.env h
  exact henv

theorem Scene.cwd_eq_of_seen_eq (h : x.seen = y.seen) : x.cwd = y.cwd := by
  have hcwd := congrArg Scene.cwd h
  exact hcwd

theorem Scene.disk_eq_of_seen_eq (h : x.seen = y.seen) : x.host.disk = y.host.disk := by
  have hdisk := congrArg (fun x => x.host.disk) h
  exact hdisk

theorem Scene.colors_eq_of_seen_eq (h : x.seen = y.seen) : x.host.colors = y.host.colors := by
  have hcolors := congrArg (fun x => x.host.colors) h
  exact hcolors

theorem Scene.home_eq_of_seen_eq (h : x.seen = y.seen) : x.home = y.home := by
  have hhome := congrArg Scene.home h
  exact hhome

/-- Scenes that look the same resolve operands alike. -/
theorem Scene.pathOf_eq_of_seen_eq (h : x.seen = y.seen) (operand : String) :
    x.pathOf operand = y.pathOf operand := by
  rw [Scene.pathOf, Scene.pathOf, Scene.cwd_eq_of_seen_eq h, Scene.home_eq_of_seen_eq h]

theorem Session.scene_seen_eq (h : s.seen = t.seen) : s.scene.seen = t.scene.seen := by
  have hscene := congrArg Session.scene h
  exact hscene

theorem Session.ledger_eq_of_seen_eq (h : s.seen = t.seen) : s.ledger = t.ledger := by
  have hledger := congrArg Session.ledger h
  exact hledger

theorem Session.table_eq_of_seen_eq (h : s.seen = t.seen) : s.table = t.table := by
  have htable := congrArg Session.table h
  exact htable

/-- Sessions look the same if their scenes do and their ledgers agree. -/
theorem Session.seen_eq_of (hscene : s.scene.seen = t.scene.seen) (hledger : s.ledger = t.ledger) :
    s.seen = t.seen := by
  have hboth : s.ledger.withScene s.scene.seen = t.ledger.withScene t.scene.seen := by
    rw [hledger, hscene]
  exact hboth

end Seen

/-! ## Correspondences -/

/-- What a correspondence between the error sinks and the sessions of two runs must allow for. It
does not look at the journal, it is kept when the same report is written to both sinks, and it tells
what remains of it when an error ends both runs. -/
structure Likeness (R : Sink → Sink → Session → Session → Prop) (E : Session → Session → Prop) :
    Prop where
  seen {a b : Sink} {s t : Session} : R a b s t → s.seen = t.seen
  stable {a b : Sink} {s t s' t' : Session} : R a b s t → s'.seen = t'.seen → s'.aside = s.aside →
    t'.aside = t.aside → R a b s' t'
  report {a b : Sink} {s t : Session} (text : String) : R a b s t →
    Joint R E (runOn (Exec.report a text) s) (runOn (Exec.report b text) t)
  error {a b : Sink} {s t : Session} : R a b s t → E s t

/-- A value and an error sink correspond to the same value and a corresponding sink. -/
def Beside {α : Type} (R : Sink → Sink → Session → Session → Prop) (x y : α × Sink)
    (s t : Session) : Prop :=
  x.1 = y.1 ∧ R x.2 y.2 s t

section Steps

variable {R : Sink → Sink → Session → Session → Prop} {E : Session → Session → Prop}
  (hR : Likeness R E) {a b : Sink} {s t : Session}
include hR

/-- Notes may differ between sessions that are alike. -/
theorem Likeness.noting (h : R a b s t) (event event' : Log.Event) :
    R a b (s.noting event) (t.noting event') := by
  have hseen := hR.seen h
  exact hR.stable h hseen rfl rfl

/-! ## Expansion -/

/-- Wherever the expansion of `word` comes to a substitution, the two ways to substitute go alike
from there. -/
def SubstitutesAlike (R : Sink → Sink → Session → Session → Prop) (E : Session → Session → Prop)
    (sub sub' : Substitution) (wiring wiring' : Wiring) (word : Word) (err : Sink) (s : Session) :
    Prop :=
  ∀ front q back text a u b u', word = front ++ .substitution q :: back →
    runOn (expandWord sub wiring err front) s = (.ok (text, a), u) → R a b u u' →
    Joint (Beside R) E (runOn (sub q wiring a) u) (runOn (sub' q wiring' b) u')

variable {sub sub' : Substitution} {wiring wiring' : Wiring} {v w : Word} {err : Sink}

omit hR in
theorem SubstitutesAlike.left (h : SubstitutesAlike R E sub sub' wiring wiring' (v ++ w) err s) :
    SubstitutesAlike R E sub sub' wiring wiring' v err s := by
  intro front q back text a u b u' hword
  exact h front q (back ++ w) text a u b u' (by rw [hword, List.append_assoc, List.cons_append])

omit hR in
theorem SubstitutesAlike.right {text : String} {u : Session}
    (h : SubstitutesAlike R E sub sub' wiring wiring' (v ++ w) err s)
    (hv : runOn (expandWord sub wiring err v) s = (.ok (text, a), u)) :
    SubstitutesAlike R E sub sub' wiring wiring' w a u := by
  intro front q back text' a' u' b' t' hword hfront
  refine h (v ++ front) q back (text ++ text') a' u' b' t' (by rw [hword, List.append_assoc]) ?_
  rw [expandWord_append, runOn_bind_of_ok hv, runOn_bind_of_ok hfront]
  rfl

omit hR in
/-- Computations that agree but for their first value end at the same sink in the same session. -/
theorem exists_of_snd_eq {α β : Type} {x : Exec (α × Sink)} {y : Exec (β × Sink)}
    (h : Prod.snd <$> x = Prod.snd <$> y) {first : α × Sink} {u : Session}
    (hx : runOn x s = (.ok first, u)) : ∃ second, runOn y s = (.ok (second, first.2), u) := by
  have hsame := congrArg (fun x => runOn x s) h
  simp only [runOn_map, hx] at hsame
  rcases hy : runOn y s with ⟨e | second, u'⟩ <;> rw [hy] at hsame
  · simp [Except.map] at hsame
  · simp only [Except.map, Prod.mk.injEq, Except.ok.injEq] at hsame
    exact ⟨second.1, by rw [hsame.1, hsame.2]⟩

/-- A part is expanded alike if its substitution is. -/
theorem expandPart_alike {part : Part}
    (hsub : SubstitutesAlike R E sub sub' wiring wiring' [part] a s) (h : R a b s t) :
    Joint (Beside R) E (runOn (expandPart sub wiring a part) s)
      (runOn (expandPart sub' wiring' b part) t) := by
  cases part with
  | text text => exact .ok ⟨rfl, h⟩
  | var name =>
      have henv := Scene.env_eq_of_seen_eq (Session.scene_seen_eq (hR.seen h))
      exact .ok ⟨by dsimp only; rw [henv], hR.noting h _ _⟩
  | substitution q => exact hsub [] q [] "" a s b t rfl rfl h

/-- A word is expanded alike if its substitutions are. -/
theorem expandWord_alike (hsub : SubstitutesAlike R E sub sub' wiring wiring' w a s)
    (h : R a b s t) :
    Joint (Beside R) E (runOn (expandWord sub wiring a w) s)
      (runOn (expandWord sub' wiring' b w) t) := by
  induction w generalizing a b s t with
  | nil => exact .ok ⟨rfl, h⟩
  | cons part rest ih =>
      have hsub' : SubstitutesAlike R E sub sub' wiring wiring' ([part] ++ rest) a s := hsub
      refine (expandPart_alike hR hsub'.left h).bind fun first first' u u' hfirst hlike => ?_
      have hword : runOn (expandWord sub wiring a [part]) s =
        (.ok (first.1 ++ "", first.2), u) := by
        rw [expandWord, runOn_bind_of_ok hfirst]
        rfl
      refine (ih (hsub'.right hword) hlike.2).bind fun tail tail' _ _ _ htail => .ok ⟨?_, htail.2⟩
      rw [hlike.1, htail.1]

/-- Words are expanded alike if their substitutions are. -/
theorem expandWords_alike {ws : List Word}
    (hsub : SubstitutesAlike R E sub sub' wiring wiring' ws.flatten a s) (h : R a b s t) :
    Joint (Beside R) E (runOn (expandWords sub wiring a ws) s)
      (runOn (expandWords sub' wiring' b ws) t) := by
  induction ws generalizing a b s t with
  | nil => exact .ok ⟨rfl, h⟩
  | cons w rest ih =>
      rw [List.flatten_cons] at hsub
      refine (expandWord_alike hR hsub.left h).bind fun first first' u u' hfirst hlike => ?_
      refine (ih (hsub.right hfirst) hlike.2).bind fun tail tail' _ _ _ htail => .ok ⟨?_, htail.2⟩
      rw [hlike.1, htail.1]

/-- Targets are expanded alike if their substitutions are. -/
theorem expandTargets_alike {rs : List (Redirection Word)}
    (hsub : SubstitutesAlike R E sub sub' wiring wiring' (rs.map Redirection.target).flatten a s)
    (h : R a b s t) :
    Joint (Beside R) E (runOn (expandTargets sub wiring a rs) s)
      (runOn (expandTargets sub' wiring' b rs) t) := by
  induction rs generalizing a b s t with
  | nil => exact .ok ⟨rfl, h⟩
  | cons r rest ih =>
      rw [List.map_cons, List.flatten_cons] at hsub
      refine (expandWord_alike hR hsub.left h).bind fun first first' u u' hfirst hlike => ?_
      refine (ih (hsub.right hfirst) hlike.2).bind fun tail tail' _ _ _ htail => .ok ⟨?_, htail.2⟩
      rw [hlike.1, htail.1]

/-- A stage is expanded alike if its substitutions are. -/
theorem expandStage_alike {c : Command}
    (hsub : SubstitutesAlike R E sub sub' wiring wiring' c.parts a s) (h : R a b s t) :
    Joint (Beside R) E (runOn (expandStage sub wiring a c) s)
      (runOn (expandStage sub' wiring' b c) t) := by
  rw [Stage.parts, List.append_assoc] at hsub
  refine (expandWord_alike hR hsub.left h).bind fun name name' u u' hname hlike => ?_
  have hrest := hsub.right hname
  refine (expandWords_alike hR hrest.left hlike.2).bind fun args args' u₁ u₁' hargs hlike₁ => ?_
  -- The targets come where the words of the arguments, taken as one word, end.
  rcases exists_of_snd_eq (snd_expandWords name.2 c.args) hargs with ⟨text, hword⟩
  refine (expandTargets_alike hR (hrest.right hword) hlike₁.2).bind fun targets targets' _ _ _
    hlike₂ => ?_
  refine .ok ⟨?_, hlike₂.2⟩
  rw [hlike.1, hlike₁.1, hlike₂.1]

/-! ## Opening -/

omit hR in
theorem Session.seen_withHost_disk (h : s.seen = t.seen) (disk : Disk) :
    (s.withHost { s.scene.host with disk }).seen =
    (t.withHost { t.scene.host with disk }).seen := by
  have hdisk := congrArg (fun x : Session => x.withHost { x.scene.host with disk }) h
  exact hdisk

/-- The same targets are opened, with the same result. -/
theorem openOne_alike (files : StageFiles) (r : Redirection String) (h : R a b s t) :
    Joint (fun x y s t => x = y ∧
      R a b s t) E (runOn (openOne files r) s) (runOn (openOne files r) t) := by
  have hscene := Session.scene_seen_eq (hR.seen h)
  simp only [openOne, runOn_bind, runOn_get]
  rw [← Scene.disk_eq_of_seen_eq hscene, ← Scene.cwd_eq_of_seen_eq hscene]
  cases s.scene.host.disk.openFor r.role r.append (Path.resolve s.scene.cwd r.target) with
  | error fault => exact .ok ⟨rfl, h⟩
  | ok opened =>
      rcases opened with ⟨disk, handle⟩
      have hopened := hR.stable h (Session.seen_withHost_disk (hR.seen h) disk) rfl rfl
      simp only [runOn_bind, runOn_set, runOn_note]
      cases r.role with
      | stdin => exact .ok ⟨rfl, hR.noting hopened _ _⟩
      | stdout => exact .ok ⟨rfl, hR.noting hopened _ _⟩
      | stderr => exact .ok ⟨rfl, hR.noting hopened _ _⟩
      | descriptor digits => exact .ok ⟨rfl, hR.noting (hR.noting hopened _ _) _ _⟩

/-- Sessions that look the same open the same files. -/
theorem openAll_alike (files : StageFiles) (rs : List (Redirection String)) (h : R a b s t) :
    Joint (fun x y s t => x = y ∧
      R a b s t) E (runOn (openAll files rs) s) (runOn (openAll files rs) t) := by
  induction rs generalizing files s t with
  | nil => exact .ok ⟨rfl, h⟩
  | cons r rest ih =>
      refine (openOne_alike hR files r h).bind ?_
      rintro (failure | files') _ u u' - ⟨rfl, hlike⟩
      · exact .ok ⟨rfl, hlike⟩
      · exact ih files' hlike

/-! ## Stages -/

omit hR in
theorem Session.seen_withFlag (h : s.seen = t.seen) (flag : Bool) :
    ({ s with expansionFailed := flag } : Session).seen =
    ({ t with expansionFailed := flag } : Session).seen := by
  have hflag := congrArg (fun x : Session => { x with expansionFailed := flag }) h
  exact hflag

/-- A substitution for which there is no room is refused in both runs. -/
theorem refuse_alike (q : Pipeline) (w w' : Wiring) (h : R a b s t) :
    Joint (Beside R) E (runOn (refuse q w a) s) (runOn (refuse q w' b) t) := by
  rw [refuse, refuse, runOn_bind_of_ok (runOn_get s), runOn_bind_of_ok (runOn_get t)]
  have hlimits : s.limits = t.limits := by
    have hlimits := congrArg Session.limits (hR.seen h)
    exact hlimits
  rw [hlimits]
  refine (hR.report _ h).bind fun a' b' u u' _ hlike => ?_
  exact .ok ⟨rfl, hR.stable hlike (Session.seen_withFlag (hR.seen hlike) true) rfl rfl⟩

/-- Two stages of the same command go alike if their substitutions do, and their command once they
are ready to run it. -/
theorem Visit.Runs.alike {v : Visit} {Q : Ended → Ended → Session → Session → Prop} {input : Input}
    {out : Sink} (hrun : v.Runs sub wiring)
    (hsub : ∀ q a b u u', v.Enters sub wiring q a u → R a b u u' →
      Joint (Beside R) E (runOn (sub q wiring a) u) (runOn (sub' q wiring' b) u'))
    (hends : ∀ outcome a b u u', R a b u u' → Q ⟨outcome, v.out, a⟩ ⟨outcome, out, b⟩ u u')
    (hcommand : ∀ stage files a b u u', v.Ready sub wiring stage files a u →
      stage.name.isEmpty = false →
      R a b u u' →
      Joint Q E (runOn (runCommand stage files v.input v.out a) (u.starting stage))
        (runOn (runCommand stage files input out b) (u'.starting stage)))
    (h : R v.err b v.before t) :
    Joint Q E (v.result, v.after) (runOn (runStage sub' wiring' v.command input out b) t) := by
  unfold Visit.Runs at hrun
  rw [← hrun]
  have hparts : SubstitutesAlike R E sub sub' wiring wiring' v.command.parts v.err v.before :=
    fun front q back text a u b u' hword hfront =>
      hsub q a b u u' ⟨front, back, text, hword, hfront⟩
  refine (expandStage_alike hR hparts h).bind ?_
  rintro ⟨stage, a'⟩ ⟨_, b'⟩ u u' hexp ⟨rfl, hlike⟩
  dsimp only
  rw [runOn_bind_of_ok (runOn_get u), runOn_bind_of_ok (runOn_get u')]
  have hflags := Session.flag_eq_of_ledger_eq (Session.ledger_eq_of_seen_eq (hR.seen hlike))
  rw [← hflags]
  -- The flag is part of what is seen, so the command is skipped in both runs or in neither.
  cases hflag : u.expansionFailed with
  | true =>
      exact .ok (hends _ _ _ _ _ (hR.stable hlike (Session.seen_withFlag (hR.seen hlike) false) rfl
        rfl))
  | false =>
      refine (openAll_alike hR {} stage.redirections hlike).bind ?_
      rintro (failure | files) _ u₁ u₁' hopen ⟨rfl, hlike₁⟩
      · refine (hR.report _ hlike₁).bind fun err err' _ _ _ hlike₂ => ?_
        exact .ok (hends _ _ _ _ _ hlike₂)
      · dsimp only
        cases hname : stage.name.isEmpty with
        | true => exact .ok (hends _ _ _ _ _ hlike₁)
        | false => exact hcommand stage files _ _ _ _ ⟨u, hexp, hflag, hopen⟩ hname hlike₁

end Steps

/-! ## Pipelines -/

section Pipelines

variable {R : Bytes → Sink → Sink → Session → Session → Prop} {E : Session → Session → Prop}
  {P : Bytes → Bytes → Prop}

/-- Two stages end alike: with the same outcome, and the first has kept the bytes that the second
has kept, behind bytes `o` that the second has sent away. What may be sent away and what may be kept
is up to `P`, and a stage that does not let the next one run has sent nothing. -/
def Ended.Like (R : Bytes → Sink → Sink → Session → Session → Prop) (P : Bytes → Bytes → Prop)
    (e e' : Ended) (s t : Session) : Prop :=
  e.outcome = e'.outcome ∧ ∃ o, P o e'.out.held ∧ (¬ e.outcome.Continues → o = []) ∧
    e.out.held = o ++ e'.out.held ∧
    R o e.err e'.err s t

/-- Two pipelines go alike. -/
def Flow.Like (R : Bytes → Sink → Sink → Session → Session → Prop) (P : Bytes → Bytes → Prop)
    (f f' : Flow) (s t : Session) : Prop :=
  f.code = f'.code ∧ f.exit = f'.exit ∧ ∃ o, P o f'.output ∧ f.output = o ++ f'.output ∧
    R o f.err f'.err s t

/-- What a stage with so many stages behind it may send away: only the last one may send
anything. -/
def SentBy (P : Bytes → Bytes → Prop) (behind : Nat) (o kept : Bytes) : Prop :=
  if behind = 0 then P o kept else o = []

variable (hR : ∀ o, Likeness (R o) E) {v v' : Visit}
include hR

/-- Two pipelines whose last visits end alike go alike. Only the last stage can pass and still end a
pipeline. -/
theorem conclusion_alike {behind : Nat} (hP : P [] [])
    (hlast : ∀ ended, v.Passed ended → behind = 0)
    (h : Joint (Ended.Like R (SentBy P behind)) E (v.result, v.after) (v'.result, v'.after))
    (k k' : Nat) :
    Joint (Flow.Like R P) E (v.conclusion k) (v'.conclusion k') := by
  rw [Visit.conclusion, Visit.conclusion]
  unfold Visit.Passed at hlast
  generalize v.result = r at h hlast
  generalize v'.result = r' at h
  cases h with
  | error states => exact .error states
  | @ok e e' _ _ values =>
      rcases values with ⟨houtcome, o, ho, hstop, hheld, hlike⟩
      refine .ok ⟨by rw [houtcome], by rw [houtcome], o, ?_, ?_, (hR o).noting hlike _ _⟩
      all_goals by_cases hgo : e.outcome.Continues
      · rw [SentBy, if_pos (hlast e ⟨rfl, hgo⟩)] at ho
        rw [if_pos (houtcome ▸ hgo)]
        exact ho
      · rw [if_neg (houtcome ▸ hgo), hstop hgo]
        exact hP
      · rw [if_pos hgo, if_pos (houtcome ▸ hgo)]
        exact hheld
      · rw [if_neg hgo, if_neg (houtcome ▸ hgo), hstop hgo]
        rfl

variable {sub sub' : Substitution} {wiring wiring' : Wiring} {I : Input → Input → Prop}

omit hR in
/-- A run gives what its wiring makes of the last stage. -/
theorem runWith_eq_map (sub : Substitution) (p : Pipeline) (wiring : Wiring) :
    runWith sub p wiring =
      wiring.resultOf <$> runStages sub wiring p.length 0 wiring.firstInput wiring.errorSink p := by
  rw [map_eq_pure_bind]
  rfl

/-- Two runs of the same stages go alike if each stage does, given what it reads and the error
sink. -/
theorem runStages_alike (hI : ∀ bs, I (.piped bs) (.piped bs)) (hP : P [] [])
    {total total' i i' : Nat} {p : Pipeline} {input input' : Input} {a b : Sink} {s t : Session}
    (hstage : ∀ k v input' b t, (visitsFrom sub wiring total i input a p s)[k]? = some v →
      I v.input input' → R [] v.err b v.before t →
      Joint (Ended.Like R (SentBy P (p.length - (k + 1)))) E (v.result, v.after)
        (runOn (runStage sub' wiring' v.command input' (wiring'.outputSink (p.length - (k + 1))) b)
        t))
    (hinput : I input input') (h : R [] a b s t) :
    Joint (Flow.Like R P) E (runOn (runStages sub wiring total i input a p) s)
      (runOn (runStages sub' wiring' total' i' input' b p) t) := by
  -- By the stages that are left. The stages of the first run are asked about, so they move along
  -- with it.
  induction p generalizing i i' input input' a b s t with
  | nil => exact .ok ⟨rfl, rfl, [], hP, rfl, h⟩
  | cons command rest ih =>
      rcases @visitsFrom_cons_cases sub wiring total i input a command rest s with ⟨v, hv, hcases⟩
      rcases @visitsFrom_cons_cases sub' wiring' total' i' input' b command rest t with ⟨v', hv', -⟩
      have hhead : (visitsFrom sub wiring total i input a (command :: rest) s)[0]? = some v := by
        rcases hcases with ⟨_, -, hvs⟩ | ⟨-, hvs⟩ <;> rw [hvs] <;> rfl
      have hfirst : Joint (Ended.Like R (SentBy P rest.length)) E (v.result, v.after) (v'.result,
        v'.after) := by
        rcases visitsFrom_head hhead with ⟨hin, herr, hbefore⟩
        rw [← hin] at hinput
        rw [← herr] at h
        have hlike := hstage 0 v input' b (t.noting (.stageStarting i' total')) hhead hinput
          (by rw [hbefore]; exact (hR []).noting h _ _)
        rw [hv'] at ⊢
        rw [hv] at hlike ⊢
        exact hlike
      rw [runOn_runStages_cons hv, runOn_runStages_cons hv']
      have hstop : (∀ ended, v.Passed ended → rest.length = 0) →
          Joint (Flow.Like R P) E (v.conclusion i) (v'.conclusion i') :=
        fun hlast => conclusion_alike hR hP hlast hfirst i i'
      rcases hr : v.result with e | ⟨code | code | code, out, err⟩ <;> rw [hr] at hfirst
      · rcases hfirst.of_error with ⟨_, hends, -⟩
        simp only [(Prod.mk.inj hends).1]
        exact hstop (by simp [Visit.Passed, hr, Outcome.Continues])
      · rcases hfirst.of_ok with ⟨⟨_, out', err'⟩, _, hends, rfl, o, ho, -, hheld, hlike⟩
        rw [Prod.mk.injEq] at hends
        simp only [hends.1]
        cases rest with
        | nil => exact hstop fun _ _ => rfl
        | cons next rest =>
            -- Only the last stage may send anything away, so the next one reads the same.
            have hnone : o = [] := by simpa [SentBy] using ho
            rw [hnone] at hheld hlike
            have hpiped : out.held = out'.held := hheld
            have htail : visitsFrom sub wiring total i input a (command :: next :: rest) s =
                v :: visitsFrom sub wiring total (i + 1) (.piped out.held) err (next :: rest)
                  (v.after.noting (.stageFinished i (.finished code))) := by
              rcases hcases with ⟨ended, ⟨hr', -⟩, hvs⟩ | ⟨hno, -⟩
              · rw [hr] at hr'
                cases hr'
                exact hvs
              · exact (hno _ ⟨hr, trivial⟩).elim
            rw [← hpiped, hends.2]
            refine ih (fun k v input' b t hv => ?_) (hI _) ((hR []).noting hlike _ _)
            have hnext := hstage (k + 1) v input' b t (by rw [htail]; exact hv)
            rwa [List.length_cons (a := command), Nat.add_sub_add_right] at hnext
      · rcases hfirst.of_ok with ⟨⟨_, out', err'⟩, _, hends, rfl, -⟩
        simp only [(Prod.mk.inj hends).1]
        exact hstop (by simp [Visit.Passed, hr, Outcome.Continues])
      · rcases hfirst.of_ok with ⟨⟨_, out', err'⟩, _, hends, rfl, -⟩
        simp only [(Prod.mk.inj hends).1]
        exact hstop (by simp [Visit.Passed, hr, Outcome.Continues])

end Pipelines

end LineShell
