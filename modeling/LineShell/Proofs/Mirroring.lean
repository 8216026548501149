import LineShell.Proofs.Coupling
import LineShell.Proofs.Custody

/-!
# Mirroring — kept output and written output

A line may run with all output kept in memory, or with all output written to the streams of the
process. Where no program is started, only the builtins that every session starts with are run, and
the streams take every write, the two runs go alike: what the first keeps is what the second writes,
in the same order. Only inside a substitution the order is not plain to see, since the first run
keeps the errors of a nested pipeline and passes them on at its end.

* `Outlet.Calm` — streams that take everything;
* `Echoes` — what one run keeps in a sink is what the other has written since some moment;
* `Mirror`, `coupling_mirror` — the desks of a command in both runs, and what a builtin may do to
  them;
* `Session.StartsNoProgram` — a command is such a builtin, or a program that cannot be started;
* `Mirrored` — the two runs between commands, a `Likeness`;
* `nest_mirrored` — a substitution, whose errors are passed on in one run and are long written in
  the other;
* `goesAlike_of_startsNoProgram` — pipelines, by induction on the levels;
* `captured_and_terminal_agree` — lines.
-/

namespace LineShell

/-! ## Streams that take everything -/

/-- The stream is not a terminal, and no write to come fails. -/
def Outlet.Calm (o : Outlet) : Prop :=
  o.terminal = false ∧ ∀ fault ∈ o.plan, fault = none

/-- A calm outlet takes every write and stays calm. -/
theorem Outlet.Calm.write {o : Outlet} (h : o.Calm) (bs : Bytes) :
    (o.write bs).2 = .ok () ∧ (o.write bs).1.Calm ∧ (o.write bs).1.written = o.written ++ bs := by
  rcases o with ⟨terminal, written, _ | ⟨fault, plan⟩⟩
  · exact ⟨rfl, h, rfl⟩
  · cases h.2 fault List.mem_cons_self
    exact ⟨rfl, ⟨h.1, fun fault hfault => h.2 fault (List.mem_cons_of_mem _ hfault)⟩, rfl⟩

/-! ## Channels -/

/-- The two output streams of a command. -/
inductive Channel where
  | out
  | err

namespace Channel

/-- The sink that stands for the stream of the process. -/
def sink : Channel → Sink
  | out => .stdout
  | err => .stderr

/-- The stream of the process. -/
def outlet : Channel → Host → Outlet
  | out, h => h.stdout
  | err, h => h.stderr

/-- The other channel. -/
def other : Channel → Channel
  | out => err
  | err => out

end Channel

/-- The sink is not a stream of the process. -/
def Sink.IsOwn : Sink → Prop
  | .buffer _ | .file _ => True
  | .stdout | .stderr => False

/-- What two runs write to a channel. If `direct`, then the first keeps in memory what the second
has written to the stream of its process since it was at `start`, and it is of the kind `ok`.
Otherwise both write to the same file, or to the same memory, and the stream of the second run stays
as it was. -/
def Echoes (c : Channel) (ok : Bytes → Prop) (start : Outlet) (direct : Bool) (a b : Sink)
    (h : Host) : Prop :=
  match direct with
  | true => ∃ bytes, ok bytes ∧ a = .buffer bytes ∧ b = c.sink ∧ (c.outlet h).Calm ∧
      (c.outlet h).written = start.written ++ bytes
  | false => a = b ∧ a.IsOwn ∧ c.outlet h = start

def Host.seen (h : Host) : Host :=
  { h with stdout := {}, stderr := {} }

section Echoes

variable {c : Channel} {ok : Bytes → Prop} {start : Outlet} {direct : Bool} {a b : Sink}
  {g h : Host}

theorem Scene.host_seen_eq {x y : Scene} (hseen : x.seen = y.seen) : x.host.seen = y.host.seen := by
  have hhost := congrArg Scene.host hseen
  exact hhost

/-- Scenes that look the same do so with hosts that look the same. -/
theorem Scene.seen_withHost {x y : Scene} (hseen : x.seen = y.seen) (hhost : g.seen = h.seen) :
    ({ x with host := g } : Scene).seen = ({ y with host := h } : Scene).seen := by
  have hboth : ({ x.seen with host := g.seen } : Scene) = { y.seen with host := h.seen } := by
    rw [hseen, hhost]
  exact hboth

theorem Host.disk_eq_of_seen_eq (hseen : g.seen = h.seen) : g.disk = h.disk := by
  have hdisk := congrArg Host.disk hseen
  exact hdisk

/-- The same write to both sinks. -/
theorem Echoes.write (hab : Echoes c ok start direct a b h) (hseen : g.seen = h.seen) (bs : Bytes)
    (hok : ∀ bytes, ok bytes → ok (bytes ++ bs)) :
    (a.write bs g).2.2 = (b.write bs h).2.2 ∧
      (a.write bs g).2.1.seen = (b.write bs h).2.1.seen ∧
      Echoes c ok start direct (a.write bs g).1 (b.write bs h).1 (b.write bs h).2.1 ∧
      c.other.outlet (b.write bs h).2.1 = c.other.outlet h := by
  cases direct with
  | true =>
      rcases hab with ⟨bytes, hbytes, rfl, rfl, hcalm, hwritten⟩
      -- Memory takes every write, and so does a calm stream.
      rcases hcalm.write bs with ⟨hdone, hcalm', hwritten'⟩
      rw [hwritten, List.append_assoc] at hwritten'
      cases c with
      | out => exact ⟨hdone.symm, hseen, ⟨_, hok bytes hbytes, rfl, rfl, hcalm', hwritten'⟩, rfl⟩
      | err => exact ⟨hdone.symm, hseen, ⟨_, hok bytes hbytes, rfl, rfl, hcalm', hwritten'⟩, rfl⟩
  | false =>
      rcases hab with ⟨rfl, hown, hsame⟩
      cases a with
      | stdout => exact hown.elim
      | stderr => exact hown.elim
      | buffer bytes => exact ⟨rfl, hseen, ⟨rfl, trivial, hsame⟩, rfl⟩
      | file handle =>
          simp only [Sink.write, Host.disk_eq_of_seen_eq hseen]
          cases h.disk.write handle bs with
          | error fault => exact ⟨rfl, hseen, ⟨rfl, trivial, hsame⟩, rfl⟩
          | ok done =>
              have hdisk := congrArg (fun h : Host => { h with disk := done.1 }) hseen
              cases c <;> exact ⟨rfl, hdisk, ⟨rfl, trivial, hsame⟩, rfl⟩

/-- Nothing but the stream of the channel matters. -/
theorem Echoes.congr (hab : Echoes c ok start direct a b g) (hsame : c.outlet h = c.outlet g) :
    Echoes c ok start direct a b h := by
  unfold Echoes at hab ⊢
  rw [hsame]
  exact hab

/-- The sinks that a command is handed in their place. -/
theorem Echoes.handedOut (hab : Echoes c ok start direct a b h) (hok : ok []) :
    Echoes c ok (c.outlet h) direct a.handedOut b.handedOut h := by
  cases direct with
  | true =>
      rcases hab with ⟨bytes, -, rfl, rfl, hcalm, -⟩
      exact ⟨[], hok, rfl, by cases c <;> rfl, hcalm, (List.append_nil _).symm⟩
  | false =>
      rcases hab with ⟨rfl, hown, -⟩
      cases a with
      | stdout => exact hown.elim
      | stderr => exact hown.elim
      | buffer bytes => exact ⟨rfl, trivial, rfl⟩
      | file handle => exact ⟨rfl, trivial, rfl⟩

/-- The sinks after the command has written to those. -/
theorem Echoes.receive {written written' : Sink} (hab : Echoes c ok start direct a b g)
    (hok : ∀ x y, ok x → ok y → ok (x ++ y))
    (hwritten : Echoes c ok (c.outlet g) direct written written' h) :
    Echoes c ok start direct (a.receive written) (b.receive written') h := by
  cases direct with
  | true =>
      rcases hab with ⟨x, hx, rfl, rfl, -, hstart⟩
      rcases hwritten with ⟨y, hy, rfl, rfl, hcalm, htaken⟩
      refine ⟨x ++ y, hok x y hx hy, rfl, by cases c <;> rfl, hcalm, ?_⟩
      rw [htaken, hstart, List.append_assoc]
  | false =>
      rcases hab with ⟨rfl, hown, hstart⟩
      rcases hwritten with ⟨rfl, hown', hsame⟩
      refine ⟨rfl, ?_, hsame.trans hstart⟩
      cases a with
      | stdout => exact hown'
      | stderr => exact hown'
      | buffer bytes => trivial
      | file handle => exact hown'

end Echoes

/-! ## Desks -/

/-- Bytes that are the bytes of a text. -/
def IsText (bytes : Bytes) : Prop :=
  ∃ text, bytes = Utf8.encode text

theorem isText_nil : IsText [] :=
  ⟨"", rfl⟩

/-- Texts that are put together are decoded part by part. -/
theorem IsText.append {x y : Bytes} (hx : IsText x) (hy : IsText y) : IsText (x ++ y) := by
  rcases hx with ⟨text, rfl⟩
  rcases hy with ⟨more, rfl⟩
  exact ⟨text ++ more, (Utf8.encode_append text more).symm⟩

/-- Two desks of the same command, in a run that keeps its output and in one that writes it. On the
error output there are only texts. -/
structure Mirror (outStart errStart : Outlet) (outDirect errDirect : Bool) (d d' : Desk) :
    Prop where
  seen : d.scene.seen = d'.scene.seen
  out : Echoes .out (fun _ => True) outStart outDirect d.out d'.out d'.scene.host
  err : Echoes .err IsText errStart errDirect d.err d'.err d'.scene.host

section Desks

variable {outStart errStart : Outlet} {outDirect errDirect : Bool}

/-- Sinks that echo each other are both terminals, or neither is. -/
theorem Echoes.isTerminal_eq {c : Channel} {ok : Bytes → Prop} {start : Outlet} {direct : Bool}
    {a b : Sink} {g h : Host} (hab : Echoes c ok start direct a b h) :
    a.isTerminal g = b.isTerminal h := by
  cases direct with
  | true =>
      rcases hab with ⟨bytes, -, rfl, rfl, hcalm, -⟩
      cases c <;> exact hcalm.1.symm
  | false =>
      rcases hab with ⟨rfl, hown, -⟩
      cases a with
      | stdout => exact hown.elim
      | stderr => exact hown.elim
      | buffer bytes => rfl
      | file handle => rfl

/-- Builtins cannot tell a buffer from the stream that mirrors it. -/
theorem coupling_mirror : Coupling (Mirror outStart errStart outDirect errDirect) where
  seen h := h.seen
  terminal h := h.out.isTerminal_eq
  stable h hseen _ hy := by
    have hstdout := congrArg Prod.fst hy
    have hstderr := congrArg Prod.snd hy
    exact ⟨hseen, h.out.congr hstdout, h.err.congr hstderr⟩
  print {d d'} bs h := by
    rw [Action.print, runOn_bind_of_ok (runOn_get d), runOn_bind_of_ok (runOn_get d')]
    rcases h.out.write (Scene.host_seen_eq h.seen) bs (fun _ _ => trivial) with
      ⟨hresult, hhost, hout, hother⟩
    -- Both sides write, and the two writes are a buffer and the stream that mirrors it, or the
    -- same.
    generalize d.out.write bs d.scene.host = x at hresult hhost hout ⊢
    generalize d'.out.write bs d'.scene.host = y at hresult hhost hout hother ⊢
    rcases x with ⟨out, host, fault | done⟩ <;> rcases y with ⟨out', host', _⟩ <;> cases hresult
    · exact .error ⟨Scene.seen_withHost h.seen hhost, hout, h.err.congr hother⟩
    · exact .ok ⟨Scene.seen_withHost h.seen hhost, hout, h.err.congr hother⟩
  report {d d'} text h := by
    rw [Action.report, runOn_bind_of_ok (runOn_get d), runOn_bind_of_ok (runOn_get d')]
    rcases h.err.write (Scene.host_seen_eq h.seen) (Utf8.encode text)
      (fun _ hbytes => hbytes.append ⟨text, rfl⟩) with
      ⟨hresult, hhost, herr, hother⟩
    generalize d.err.write (Utf8.encode text) d.scene.host = x at hresult hhost herr ⊢
    generalize d'.err.write (Utf8.encode text) d'.scene.host = y at hresult hhost herr hother ⊢
    rcases x with ⟨err, host, fault | done⟩ <;> rcases y with ⟨err', host', _⟩ <;> cases hresult
    · exact .error ⟨Scene.seen_withHost h.seen hhost, h.out.congr hother, herr⟩
    · exact .ok ⟨Scene.seen_withHost h.seen hhost, h.out.congr hother, herr⟩

end Desks

/-! ## Builtins -/

/-- What remains of a correspondence after an error: what is seen of the sessions is the same. -/
def SameSeen (s t : Session) : Prop :=
  s.seen = t.seen

/-- Two sessions with the sinks of a command. -/
def MirroredBy (outStart errStart : Outlet) (outDirect errDirect : Bool) (out out' err err' : Sink)
    (s t : Session) :
    Prop :=
  s.ledger = t.ledger ∧ Mirror outStart errStart outDirect errDirect ⟨s.scene, out, err⟩ ⟨t.scene,
    out', err'⟩

section Builtins

variable {outStart errStart : Outlet} {outDirect errDirect : Bool} {out out' err err' : Sink}
  {s t : Session}

theorem MirroredBy.sameSeen
    (h : MirroredBy outStart errStart outDirect errDirect out out' err err' s t) :
    SameSeen s t :=
  Session.seen_eq_of h.2.seen h.1

/-- What is handed to a builtin is mirrored if the sinks are. -/
theorem MirroredBy.handedOut
    (h : MirroredBy outStart errStart outDirect errDirect out out' err err' s t) :
    Mirror t.scene.host.stdout t.scene.host.stderr outDirect errDirect
      ⟨s.scene, out.handedOut, err.handedOut⟩ ⟨t.scene, out'.handedOut, err'.handedOut⟩ :=
  ⟨h.2.seen, h.2.out.handedOut trivial, h.2.err.handedOut isText_nil⟩

/-- What comes back from a builtin is mirrored again. -/
theorem MirroredBy.receive
    (h : MirroredBy outStart errStart outDirect errDirect out out' err err' s t) {d d' : Desk}
    (hd : Mirror t.scene.host.stdout t.scene.host.stderr outDirect errDirect d d') :
    MirroredBy outStart errStart outDirect errDirect (out.receive d.out) (out'.receive d'.out)
      (err.receive d.err) (err'.receive d'.err) (s.withScene d.scene) (t.withScene d'.scene) :=
  ⟨h.1, hd.seen, h.2.out.receive (fun _ _ _ _ => trivial) hd.out,
    h.2.err.receive (fun _ _ => IsText.append) hd.err⟩

/-- A report goes to the buffer and to the stream alike. -/
theorem report_mirrored (h : MirroredBy outStart errStart outDirect errDirect out out' err err' s t)
    (text : String) :
    Joint (fun a b s t => MirroredBy outStart errStart outDirect errDirect out out' a b s t)
      SameSeen (runOn (Exec.report err text) s) (runOn (Exec.report err' text) t) := by
  rcases h.2.err.write (Scene.host_seen_eq h.2.seen) (Utf8.encode (text ++ "\n"))
    (fun _ hbytes => hbytes.append ⟨_, rfl⟩) with ⟨hresult, hhost, herr, hother⟩
  rw [Exec.report, Exec.report, runOn_write, runOn_write]
  generalize err.write (Utf8.encode (text ++ "\n")) s.scene.host = x at hresult hhost herr ⊢
  generalize err'.write (Utf8.encode (text ++ "\n")) t.scene.host = y at hresult hhost herr hother ⊢
  have hscene := Scene.seen_withHost h.2.seen hhost
  rcases x with ⟨a, host, fault | done⟩ <;> rcases y with ⟨b, host', _⟩ <;> cases hresult
  · exact .error (Session.seen_eq_of hscene h.1)
  · exact .ok ⟨h.1, hscene, h.2.out.congr hother, herr⟩

theorem Sink.held_receive_handedOut (a : Sink) : (a.receive a.handedOut).held = a.held := by
  cases a with
  | buffer bytes => exact List.append_nil bytes
  | stdout => rfl
  | stderr => rfl
  | file handle => rfl

/-- One of the builtins that every session starts with. One that ends the session prints nothing. -/
theorem runBuiltin_mirrored
    (h : MirroredBy outStart errStart outDirect errDirect out out' err err' s t) {b : Builtin}
    {name : String} (hb : Builtin.standard.lookup name = some b) (args : List String)
    (stdin stdin' : Option Bytes) :
    Joint (fun e e' s t => e.outcome = e'.outcome ∧
      (¬ e.outcome.Continues → e.out.held = out.held) ∧
        MirroredBy outStart errStart outDirect errDirect e.out e'.out e.err e'.err s t) SameSeen
      (runOn (runBuiltin b name args stdin out err) s)
        (runOn (runBuiltin b name args stdin' out' err') t) := by
  have hboth := standard_coupled coupling_mirror hb args stdin stdin' _ _ h.handedOut
  rw [runOn_runBuiltin, runOn_runBuiltin]
  generalize hr : runOn (b args stdin) _ = r at hboth ⊢
  generalize runOn (b args stdin') _ = r' at hboth ⊢
  cases hboth with
  | error states =>
      refine (report_mirrored (h.receive states) _).bind fun _ _ _ _ _ hsinks => ?_
      exact .ok ⟨rfl, fun hstop => (hstop trivial).elim, hsinks⟩
  | @ok answer _ d d' values =>
      rcases values with ⟨rfl, hdesks⟩
      have hsinks := h.receive hdesks
      cases answer with
      | code n => exact .ok ⟨rfl, fun hstop => (hstop trivial).elim, hsinks⟩
      | exit n =>
          -- What `exit` had printed would be dropped by a run that keeps it, but it prints nothing.
          refine .ok ⟨rfl, fun _ => ?_, hsinks⟩
          have hexit := ((standard_exits_iff hb).1 (congrArg Prod.fst hr)).1
          subst hexit
          cases hb.symm.trans lookup_exit
          cases hr
          exact Sink.held_receive_handedOut out

/-- Notes may differ between mirrored sessions. -/
theorem MirroredBy.noting
    (h : MirroredBy outStart errStart outDirect errDirect out out' err err' s t)
    (event event' : Log.Event) :
    MirroredBy outStart errStart outDirect errDirect out out' err err' (s.noting event)
      (t.noting event') := by
  have hseen := h.2.seen
  exact ⟨h.1, hseen, h.2.out, h.2.err⟩

/-- Launches are counted on both sides. -/
theorem MirroredBy.launching
    (h : MirroredBy outStart errStart outDirect errDirect out out' err err' s t) :
    MirroredBy outStart errStart outDirect errDirect out out' err err' s.launching t.launching := by
  have hledger : s.launching.ledger = t.launching.ledger := h.1
  exact ⟨hledger, h.2.seen, h.2.out, h.2.err⟩

/-- A program that cannot be started. -/
theorem runProgram_mirrored
    (h : MirroredBy outStart errStart outDirect errDirect out out' err err' s t) {name : String}
    {args : List String} {fault : StartFault}
    (hfault : s.programs.Refuses (s.launch name args) s.scene.host.disk fault)
    (input input' : Feed) :
    Joint (fun e e' s t => e.outcome = e'.outcome ∧
      (¬ e.outcome.Continues → e.out.held = out.held) ∧
        MirroredBy outStart errStart outDirect errDirect e.out e'.out e.err e'.err s t) SameSeen
      (runOn (runProgram name args input out err) s) (runOn (runProgram name args input' out' err')
        t) := by
  have hlaunch : s.seen.launch name args = t.seen.launch name args := by rw [h.sameSeen]
  have hprograms : t.programs = s.programs := by
    have hprograms := congrArg Session.programs h.sameSeen
    exact hprograms.symm
  have hstart : s.start name args input out err = .error fault :=
    hfault _ s.scene.host _ _ _ rfl
  have hstart' : t.start name args input' out' err' = .error fault := by
    rw [Session.start, hprograms, show t.launch name args = s.launch name args from hlaunch.symm]
    exact hfault _ t.scene.host _ _ _ (Scene.disk_eq_of_seen_eq h.2.seen).symm
  rw [runProgram, runProgram, runOn_bind_of_ok (runOn_get s), runOn_bind_of_ok (runOn_get t),
    runOn_bind_of_ok (runOn_note _ s), runOn_bind_of_ok (runOn_note _ t),
    runOn_bind_of_ok (runOn_modify _ _), runOn_bind_of_ok (runOn_modify _ _), hstart, hstart']
  dsimp only
  rw [runOn_bind_of_ok (runOn_note _ _), runOn_bind_of_ok (runOn_note _ _)]
  refine (report_mirrored ((h.noting _ _).launching.noting _ _) _).bind fun _ _ _ _ _ hsinks => ?_
  exact .ok ⟨rfl, fun hstop => (hstop trivial).elim, hsinks⟩

end Builtins

/-- The command is one of the builtins that every session starts with, or a program that cannot be
started as things stand. -/
def Session.StartsNoProgram (s : Session) (stage : Stage String) : Prop :=
  (∃ b, s.table.lookup stage.name = some b ∧ Builtin.standard.lookup stage.name = some b) ∨
    s.table.lookup stage.name = none ∧
      ∃ fault, s.programs.Refuses (s.launch stage.name stage.args) s.scene.host.disk fault

/-- If the stage comes to run a command, then it starts no program. -/
def Visit.StartsNoProgram (sub : Substitution) (wiring : Wiring) (v : Visit) : Prop :=
  ∀ stage files err t, v.Ready sub wiring stage files err t → stage.name.isEmpty = false →
    t.StartsNoProgram stage

/-- A stage that runs a standard builtin starts no program. -/
theorem Visit.RunsStandard.startsNoProgram {sub : Substitution} {wiring : Wiring} {v : Visit}
    (h : v.RunsStandard sub wiring) : v.StartsNoProgram sub wiring :=
  fun stage files err t hready hname => .inl (h stage files err t hready hname)

/-! ## Commands -/

/-- Two runs side by side. The first keeps its errors, and the second writes them; they began to
when the streams of the second had taken `outStart` and `errStart`. Since then it has printed
`o`. -/
structure Mirrored (outStart errStart o : Bytes) (a b : Sink) (s t : Session) : Prop where
  seen : s.seen = t.seen
  calm : t.scene.host.stdout.Calm
  printed : t.scene.host.stdout.written = outStart ++ o
  told : Echoes .err IsText { written := errStart } true a b t.scene.host

section Commands

variable {outStart errStart : Bytes} {P : Bytes → Bytes → Prop} {a b out' : Sink} {s t : Session}
  {stage : Stage String} {files : StageFiles} {input input' : Input}

/-- Running into buffers and running into streams is a likeness. -/
theorem mirrored_likeness (outStart errStart o : Bytes) :
    Likeness (Mirrored outStart errStart o) SameSeen where
  seen h := h.seen
  stable {a b s t s' t'} h hseen _ ht := by
    have hstdout : t'.scene.host.stdout = t.scene.host.stdout := congrArg (fun x => x.1.1) ht
    have hstderr : t'.scene.host.stderr = t.scene.host.stderr := congrArg (fun x => x.1.2) ht
    refine ⟨hseen, ?_, ?_, h.told.congr hstderr⟩
    · rw [hstdout]
      exact h.calm
    · rw [hstdout]
      exact h.printed
  report {a b s t} text h := by
    -- A report goes to memory on one side and to the stream on the other, so it is one write that
    -- mirrors another.
    have hsinks : MirroredBy t.scene.host.stdout { written := errStart } false true .memory .memory
      a b s t :=
      ⟨Session.ledger_eq_of_seen_eq h.seen, Session.scene_seen_eq h.seen, ⟨rfl, trivial, rfl⟩,
        h.told⟩
    refine (report_mirrored hsinks text).imp fun _ _ s' t' hsinks' => ?_
    have hstdout : t'.scene.host.stdout = t.scene.host.stdout := hsinks'.2.out.2.2
    refine ⟨hsinks'.sameSeen, ?_, ?_, hsinks'.2.err⟩
    · rw [hstdout]
      exact h.calm
    · rw [hstdout]
      exact h.printed
  error h := h.seen

/-- The error sinks of a command, and what becomes of them once sinks that were replaced by a file
are back. -/
theorem exists_errors (h : Echoes .err IsText { written := errStart } true a b t.scene.host)
    (files : StageFiles) :
    ∃ start direct, Echoes .err IsText start direct (files.errOr a) (files.errOr b) t.scene.host ∧
      ∀ x y g, Echoes .err IsText start direct x y g →
        Echoes .err IsText { written := errStart } true (if files.stderr.isSome then a else x)
          (if files.stderr.isSome then b else y) g := by
  rw [StageFiles.errOr, StageFiles.errOr]
  cases files.stderr with
  | none => exact ⟨_, true, h, fun _ _ _ h => h⟩
  | some handle =>
      refine ⟨t.scene.host.stderr, false, ⟨rfl, trivial, rfl⟩, fun x y g hxy => h.congr ?_⟩
      exact hxy.2.2

/-- The same for the output. A command that has memory of its own in both runs prints nothing. -/
theorem exists_output (hcalm : t.scene.host.stdout.Calm) (files : StageFiles)
    (hout : out' = .memory ∨ out' = .stdout)
    (hP : ∀ o kept, out' = .memory ∧ o = [] ∨ out' = .stdout ∧ kept = [] → P o kept) :
    ∃ direct, Echoes .out (fun _ => True) t.scene.host.stdout direct (files.outOr .memory)
      (files.outOr out')
        t.scene.host ∧
      ∀ (x y : Sink) (g : Host) (stopped : Prop),
        Echoes .out (fun _ => True) t.scene.host.stdout direct x y g →
        (stopped → x.held = (files.outOr .memory).held) →
        ∃ o, P o (if files.stdout.isSome then out' else y).held ∧ (stopped → o = []) ∧
          (if files.stdout.isSome then Sink.memory else x).held =
            o ++ (if files.stdout.isSome then out' else y).held ∧
          g.stdout.Calm ∧ g.stdout.written = t.scene.host.stdout.written ++ o := by
  have hnone : out'.held = [] := by rcases hout with rfl | rfl <;> rfl
  rw [StageFiles.outOr, StageFiles.outOr]
  -- With a file for its output the stage leaves the stream alone on both sides.
  cases files.stdout with
  | some handle =>
      refine ⟨false, ⟨rfl, trivial, rfl⟩, fun x y g stopped hxy _ =>
        ⟨[], hP _ _ ?_, fun _ => rfl, ?_, ?_⟩⟩
      · exact hout.imp (fun hout => ⟨hout, rfl⟩) fun hout => ⟨hout, hnone⟩
      · exact hnone.symm
      · have hsame : g.stdout = t.scene.host.stdout := hxy.2.2
        rw [hsame, List.append_nil]
        exact ⟨hcalm, rfl⟩
  | none =>
      rcases hout with rfl | rfl
      · refine ⟨false, ⟨rfl, trivial, rfl⟩, fun x y g stopped hxy _ =>
          ⟨[], hP _ _ ?_, fun _ => rfl, ?_, ?_⟩⟩
        · exact .inl ⟨rfl, rfl⟩
        · exact congrArg Sink.held hxy.1
        · have hsame : g.stdout = t.scene.host.stdout := hxy.2.2
          rw [hsame, List.append_nil]
          exact ⟨hcalm, rfl⟩
      · refine ⟨true, ⟨[], trivial, rfl, rfl, hcalm, (List.append_nil _).symm⟩, ?_⟩
        rintro x y g stopped ⟨bytes, -, rfl, rfl, hcalm', hwritten⟩ hstop
        exact ⟨bytes, hP _ _ (.inr ⟨rfl, rfl⟩), hstop, (List.append_nil _).symm, hcalm', hwritten⟩

/-- A command that starts no program. -/
theorem runCommand_mirrored (h : Mirrored outStart errStart [] a b s t)
    (hnone : s.StartsNoProgram stage) (hout : out' = .memory ∨ out' = .stdout)
    (hP : ∀ o kept, out' = .memory ∧ o = [] ∨ out' = .stdout ∧ kept = [] → P o kept) :
    Joint (Ended.Like (Mirrored outStart errStart) P) SameSeen
      (runOn (runCommand stage files input .memory a) s)
        (runOn (runCommand stage files input' out' b) t) := by
  rcases exists_errors h.told files with ⟨errStart', errDirect, herr, hback⟩
  rcases exists_output h.calm files hout hP with ⟨outDirect, houts, hsettled⟩
  have hsinks : MirroredBy t.scene.host.stdout errStart' outDirect errDirect (files.outOr .memory)
    (files.outOr out')
      (files.errOr a) (files.errOr b) s t :=
    ⟨Session.ledger_eq_of_seen_eq h.seen, Session.scene_seen_eq h.seen, houts, herr⟩
  -- What the command leaves at its own sinks becomes what the stage leaves.
  have hsettle : ∀ (e e' : Ended) u u', (e.outcome = e'.outcome ∧
        (¬ e.outcome.Continues → e.out.held = (files.outOr .memory).held) ∧
        MirroredBy t.scene.host.stdout errStart' outDirect errDirect e.out e'.out e.err e'.err u
          u') →
      Ended.Like (Mirrored outStart errStart) P (files.settle .memory a e) (files.settle out' b e')
        u u' := by
    rintro e e' u u' ⟨houtcome, hstop, hends⟩
    rcases hsettled e.out e'.out u'.scene.host (¬ e.outcome.Continues) hends.2.out hstop with
      ⟨o, ho, hnothing, hheld, hcalm, hwritten⟩
    refine ⟨houtcome, o, ho, hnothing, hheld, hends.sameSeen, hcalm, ?_, hback _ _ _ hends.2.err⟩
    rw [hwritten, h.printed, List.append_nil]
  rcases hnone with ⟨builtin, hfound, hstandard⟩ | ⟨habsent, fault, hfault⟩
  · refine runCommand_builtin_alike h.seen h.seen hfound fun stdin stdin' _ => ?_
    exact (runBuiltin_mirrored hsinks hstandard stage.args stdin stdin').map hsettle
  · have habsent' : t.table.lookup stage.name = none := by
      rw [← Session.table_eq_of_seen_eq h.seen]
      exact habsent
    rw [runOn_runCommand_of_absent habsent, runOn_runCommand_of_absent habsent']
    exact (runProgram_mirrored hsinks hfault _ _).map hsettle

end Commands

/-! ## Runs -/

theorem Utf8.decodeLossy_encode (text : String) : decodeLossy (encode text) = text := by
  by_cases h : text = ""
  · subst h
    rfl
  · have hread := decodeLossy_append_encode [] [] h
    rw [List.append_nil] at hread
    simpa [decodeLossy, read, Reader.finish] using hread

section Runs

variable {outStart errStart : Bytes} {a b : Sink} {s t : Session} {sub : Substitution}
  {wiring : Wiring} {p q : Pipeline} {v : Visit}

/-- The output of a pipeline is kept, and then it prints nothing, or it is not kept. -/
def PrintsBy (wiring : Wiring) (o kept : Bytes) : Prop :=
  if wiring.captureOutput then o = [] else kept = []

/-- The pipeline goes alike with all output kept and with its errors written, once the streams are
calm. -/
def GoesAlike (sub : Substitution) (wiring : Wiring) (p : Pipeline) (s t : Session) : Prop :=
  Joint (Flow.Like (Mirrored t.scene.host.stdout.written t.scene.host.stderr.written)
    (PrintsBy wiring)) SameSeen
      (runOn (runStages sub .captured p.length 0 Wiring.captured.firstInput
      Wiring.captured.errorSink p) s)
    (runOn (runStages sub wiring p.length 0 wiring.firstInput wiring.errorSink p) t)

/-- Text that is passed on to a buffer stands behind what is there. -/
theorem runOn_passOn_buffer (bytes : Bytes) (text : String) (s : Session) :
    runOn (passOn (.buffer bytes) text) s = (.ok (.buffer (bytes ++ Utf8.encode text)), s) := by
  unfold passOn
  split
  · next hempty =>
    rw [String.isEmpty_iff.1 hempty, show Utf8.encode "" = [] from rfl, List.append_nil]
    rfl
  · exact runOn_write_buffer bytes _ s

/-- A substitution whose pipeline goes alike. What the first run passes on as a text, the second has
written before. -/
theorem nest_mirrored (hcapture : wiring.captureErrors = false)
    (h : Mirrored outStart errStart [] a b s t)
    (hinner : GoesAlike sub wiring.nested q s.enter t.enter) :
    Joint (Beside (Mirrored outStart errStart [])) SameSeen
      (runOn (nest (runWith sub) q .captured a) s) (runOn (nest (runWith sub) q wiring b) t) := by
  rw [GoesAlike] at hinner
  rw [runOn_nest, runOn_nest, runWith_eq_map, runWith_eq_map, runOn_map, runOn_map,
    show Wiring.captured.nested = .captured from rfl]
  generalize runOn (runStages sub .captured _ _ _ _ q) s.enter = r at hinner ⊢
  generalize runOn (runStages sub wiring.nested _ _ _ _ q) t.enter = r' at hinner ⊢
  cases hinner with
  | error states =>
      have hleave := congrArg Session.leave states
      exact .error hleave
  | @ok f f' u u' values =>
      rcases values with ⟨-, -, o, ho, houtput, hlike⟩
      have hnothing : o = [] := ho
      rw [hnothing] at houtput hlike
      -- The first run has `x` and now adds `text` to it, the second has written `x` and then
      -- `text`.
      rcases h.told with ⟨x, hx, rfl, hb, -, hstart⟩
      rcases hlike.told with ⟨y, ⟨text, rfl⟩, herr, -, hcalm, hwritten⟩
      have htext : (Wiring.captured.resultOf f).stderr = text := by
        rw [Wiring.resultOf, herr]
        exact Utf8.decodeLossy_encode text
      have hsilent : (wiring.nested.resultOf f').stderr = "" := by
        simp [Wiring.resultOf, Wiring.nested, hcapture]
      have hleave := congrArg Session.leave hlike.seen
      dsimp only [Except.map]
      rw [htext, hsilent, runOn_bind_of_ok (runOn_passOn_buffer x text u.leave)]
      refine .ok ⟨?_, hleave, hlike.calm, ?_, x ++ Utf8.encode text, hx.append ⟨text, rfl⟩, rfl, hb,
        hcalm, ?_⟩
      · simp [Wiring.resultOf, Wiring.captured, Wiring.nested, houtput]
      · have hprinted := hlike.printed
        rw [List.append_nil] at hprinted
        exact hprinted.trans h.printed
      · rw [← List.append_assoc, ← hstart]
        exact hwritten

/-- A stage that starts no program. -/
theorem Visit.Runs.mirrored {P : Bytes → Bytes → Prop} {input' : Input} {out' : Sink}
    (hrun : v.Runs sub .captured) (hsub : ∀ q a b u u', v.Enters sub .captured q a u →
    Mirrored outStart errStart [] a b u u' →
      Joint (Beside (Mirrored outStart errStart [])) SameSeen (runOn (sub q .captured a) u)
        (runOn (sub q wiring b) u'))
    (hnone : v.StartsNoProgram sub .captured) (hmemory : v.out = .memory)
    (hout : out' = .memory ∨ out' = .stdout)
    (hP : ∀ o kept, out' = .memory ∧ o = [] ∨ out' = .stdout ∧ kept = [] → P o kept)
    (h : Mirrored outStart errStart [] v.err b v.before t) :
    Joint (Ended.Like (Mirrored outStart errStart) P) SameSeen (v.result, v.after)
      (runOn (runStage sub wiring v.command input' out' b) t) := by
  have hL := mirrored_likeness outStart errStart []
  refine hrun.alike hL hsub ?_ ?_ h
  · intro outcome a b u u' hlike
    have hheld : out'.held = [] := by rcases hout with rfl | rfl <;> rfl
    refine ⟨rfl, [], hP _ _ ?_, fun _ => rfl, ?_, hlike⟩
    · exact hout.imp (fun hout => ⟨hout, rfl⟩) fun hout => ⟨hout, hheld⟩
    · rw [hmemory]
      exact hheld.symm
  · intro stage files a b u u' hready hname hlike
    rw [hmemory]
    exact runCommand_mirrored (hL.noting hlike _ _) (hnone stage files a u hready hname) hout hP

/-- Output goes to memory or to the stream. -/
theorem outputSink_cases (wiring : Wiring) (behind : Nat) :
    wiring.outputSink behind = .memory ∨ wiring.outputSink behind = .stdout := by
  rw [Wiring.outputSink]
  split
  · exact .inl rfl
  · exact .inr rfl

/-- Only the last stage prints, and only if its output is not kept. -/
theorem sentBy_printsBy (wiring : Wiring) (behind : Nat) {o kept : Bytes}
    (h : wiring.outputSink behind = .memory ∧ o = [] ∨ wiring.outputSink behind = .stdout ∧
    kept = []) :
    SentBy (PrintsBy wiring) behind o kept := by
  rw [SentBy, PrintsBy]
  rw [Wiring.outputSink] at h
  by_cases hmemory : 0 < behind ∨ wiring.captureOutput = true
  · have hnothing : o = [] := by simpa [if_pos hmemory, Sink.memory] using h
    rcases hmemory with hbehind | hcapture
    · rw [if_neg (Nat.ne_of_gt hbehind)]
      exact hnothing
    · rw [if_pos hcapture]
      split <;> exact hnothing
  · have hkept : kept = [] := by simpa [if_neg hmemory, Sink.memory] using h
    rw [not_or, Nat.not_lt, Nat.le_zero] at hmemory
    rw [if_pos hmemory.1, if_neg hmemory.2]
    exact hkept

/-- A pipeline whose stages start no programs, given that its substitutions go alike. -/
theorem goesAlike_of_substitutions (hcapture : wiring.captureErrors = false)
    (hseen : s.seen = t.seen) (hout : t.scene.host.stdout.Calm) (herr : t.scene.host.stderr.Calm)
    (hsub : ∀ outStart errStart, ∀ v ∈ visits sub .captured p s, ∀ q a b u u',
    v.Enters sub .captured q a u →
      Mirrored outStart errStart [] a b u u' →
      Joint (Beside (Mirrored outStart errStart [])) SameSeen (runOn (sub q .captured a) u)
        (runOn (sub q wiring b) u'))
    (hnone : ∀ v ∈ visits sub .captured p s, v.StartsNoProgram sub .captured) :
    GoesAlike sub wiring p s t := by
  have hstart : Mirrored t.scene.host.stdout.written t.scene.host.stderr.written []
      Wiring.captured.errorSink wiring.errorSink s t := by
    have hsink : wiring.errorSink = .stderr := by simp [Wiring.errorSink, hcapture]
    rw [hsink]
    exact ⟨hseen, hout, (List.append_nil _).symm, [], isText_nil, rfl, rfl, herr,
      (List.append_nil _).symm⟩
  refine runStages_alike (I := fun _ _ => True) (mirrored_likeness _ _)
    (fun _ => trivial) ?_ ?_ trivial hstart
  · rw [PrintsBy]
    split <;> rfl
  intro k v input' b t' hv _ hlike
  have hmem : v ∈ visits sub .captured p s := List.mem_of_getElem? hv
  have hmemory : v.out = .memory := by
    rw [visitsFrom_output hv, Wiring.outputSink]
    exact if_pos (.inr rfl)
  exact (visitsFrom_runs hmem).mirrored (hsub _ _ v hmem) (hnone v hmem) hmemory
    (outputSink_cases _ _) (fun o kept => sentBy_printsBy wiring _) hlike

/-- A pipeline that starts no program, at any level. -/
theorem goesAlike_of_startsNoProgram {levels : Nat} (hcapture : wiring.captureErrors = false)
    (hseen : s.seen = t.seen) (hout : t.scene.host.stdout.Calm) (herr : t.scene.host.stderr.Calm)
    (hnone : ∀ rest w v, Occurs levels p .captured s rest w v →
    v.StartsNoProgram (substitutionWithin rest) w) :
    GoesAlike (substitutionWithin levels) wiring p s t := by
  induction levels generalizing p s t wiring with
  | zero =>
      refine goesAlike_of_substitutions hcapture hseen hout herr ?_ fun v hv =>
        hnone _ _ v (.here hv)
      intro outStart errStart v _ q a b u u' _ hlike
      -- There is no room left, so every substitution is refused, in the same words.
      exact refuse_alike (mirrored_likeness outStart errStart []) q .captured wiring hlike
  | succ levels ih =>
      refine goesAlike_of_substitutions hcapture hseen hout herr ?_ fun v hv =>
        hnone _ _ v (.here hv)
      intro outStart errStart v hv q a b u u' hq hlike
      -- The pipeline inside goes alike one level deeper, from where the outer run has come to.
      have henter := congrArg Session.enter hlike.seen
      have hinner : GoesAlike (substitutionWithin levels) wiring.nested q u.enter u'.enter := by
        refine ih hcapture henter hlike.calm ?_ ?_
        · rcases hlike.told with ⟨_, _, _, _, hcalm, _⟩
          exact hcalm
        · exact fun rest w v' hv' => hnone rest w v' (.inside hv hq hv')
      rw [substitutionWithin, runWithin_eq_runWith]
      exact nest_mirrored hcapture hlike hinner

end Runs

/-- A line that starts no program at any level, so that whatever is run is a builtin that every
session starts with, in a process whose output streams are no terminals and take every write. If it
has an answer with all output kept, then it has one with all output written, from the same session:
with the same status and the same wish to end the session. The two runs leave the same variables,
the same working directory and the same disk. The second has written the bytes of the error output
of the first to the error stream, and to the output stream bytes that are read as the output of the
first. -/
theorem captured_and_terminal_agree (line : String) (s : Session) (hout : s.scene.host.stdout.Calm)
    (herr : s.scene.host.stderr.Calm)
    (hnone : ∀ rest w v, s.Reaches line .captured rest w v →
      v.StartsNoProgram (substitutionWithin rest) w) (result : Result) (t : Session)
    (h : runOn (Session.run line .captured) s = (.ok result, t)) :
    ∃ result' t' printed, runOn (Session.run line .terminal) s = (.ok result', t') ∧
      result'.code = result.code ∧ result'.exit = result.exit ∧
      t'.scene.env = t.scene.env ∧ t'.scene.cwd = t.scene.cwd ∧
      t'.scene.host.disk = t.scene.host.disk ∧
      t'.scene.host.stderr.written = s.scene.host.stderr.written ++ Utf8.encode result.stderr ∧
      t'.scene.host.stdout.written = s.scene.host.stdout.written ++ printed ∧
      Utf8.decodeLossy printed = result.stdout := by
  cases hparse : Pipeline.parse line with
  | error e =>
      -- A line that cannot be read has no answer.
      rw [runOn_run_of_malformed hparse] at h
      cases h
  | ok p =>
      have hboth := @goesAlike_of_startsNoProgram (s.recording line) (s.recording line) .terminal p
        s.room rfl rfl hout herr fun rest w v hv => hnone rest w v ⟨p, hparse, hv⟩
      rw [GoesAlike] at hboth
      rw [runOn_run_eq_runWithin hparse, runWithin_eq_runWith, runWith_eq_map, runOn_map] at h ⊢
      generalize runOn (runStages _ .captured _ _ _ _ p) (s.recording line) = r at hboth h
      generalize runOn (runStages _ .terminal _ _ _ _ p) (s.recording line) = r' at hboth ⊢
      cases hboth with
      | error states => cases h
      | @ok f f' _ t' values =>
          cases h
          rcases values with ⟨hcode, hexit, o, hprints, houtput, hlike⟩
          have hscene := Session.scene_seen_eq hlike.seen
          rcases hlike.told with ⟨bytes, ⟨text, rfl⟩, hkept, -, -, hwritten⟩
          have htext : (Wiring.captured.resultOf f).stderr = text := by
            rw [Wiring.resultOf, hkept]
            exact Utf8.decodeLossy_encode text
          have hnothing : f'.output = [] := hprints
          rw [hnothing, List.append_nil] at houtput
          refine ⟨_, t', o, rfl, hcode.symm, hexit.symm, (Scene.env_eq_of_seen_eq hscene).symm,
            (Scene.cwd_eq_of_seen_eq hscene).symm, (Scene.disk_eq_of_seen_eq hscene).symm, ?_,
            hlike.printed, congrArg Utf8.decodeLossy houtput.symm⟩
          rw [htext]
          exact hwritten

/-- Every stage that occurs in this pipeline is an echo. -/
theorem name_of_occurs_echoFrom {levels rest : Nat} {wiring w : Wiring} {s : Session} {v : Visit}
    {path : String} (hv : Occurs levels [echoFrom path] wiring s rest w v) :
    v.command.name = [.text "echo"] := by
  cases hv with
  | here visited =>
      rw [List.mem_singleton.1 (command_mem_of_visits visited)]
      rfl
  | inside visited entered _ =>
      have hinner := entered.mem_parts
      rw [List.mem_singleton.1 (command_mem_of_visits visited)] at hinner
      simp [echoFrom, Stage.parts] at hinner

/-- Every stage that occurs in this pipeline, or inside it, is an echo. -/
theorem name_of_occurs_echoInner {levels rest : Nat} {wiring w : Wiring} {s : Session} {v : Visit}
    {path : String} (hv : Occurs levels [echoInner [echoFrom path]] wiring s rest w v) :
    v.command.name = [.text "echo"] := by
  cases hv with
  | here visited =>
      rw [List.mem_singleton.1 (command_mem_of_visits visited)]
      rfl
  | @inside _ _ _ q _ _ _ _ _ _ _ visited entered within =>
      have hinner := entered.mem_parts
      rw [List.mem_singleton.1 (command_mem_of_visits visited)] at hinner
      have hq : q = [echoFrom path] := by simpa [echoInner, Stage.parts] using hinner
      rw [hq] at within
      exact name_of_occurs_echoFrom within

/-- A complaint from inside a substitution is written, too. -/
theorem complaint_is_written :
    ∃ result t printed, runOn (Session.run "echo $(echo < /nope)" .terminal) bareSession =
      (.ok result, t) ∧
      t.scene.host.stderr.written = Utf8.encode "minsh: /nope: No such file or directory\n" ∧
      t.scene.host.stdout.written = printed ∧ Utf8.decodeLossy printed = "\n" := by
  have hcalm : ({} : Outlet).Calm := ⟨rfl, by simp⟩
  rcases run_unopened with ⟨t, hanswer⟩
  have hnone : ∀ rest w v, bareSession.Reaches "echo $(echo < /nope)" .captured rest w v →
      v.StartsNoProgram (substitutionWithin rest) w := by
    rintro rest w v ⟨p, hp, hv⟩
    cases parse_unopened.symm.trans hp
    refine Visit.RunsStandard.startsNoProgram ?_
    exact Visit.runsStandard_of_name (substitutionWithin_keepsFrame _) hv.table_eq
      (name_of_occurs_echoInner hv) lookup_echo
  rcases captured_and_terminal_agree _ bareSession hcalm hcalm hnone _ t hanswer with
    ⟨result, t', printed, hrun, -, -, -, -, -, herr, hout, hprinted⟩
  exact ⟨result, t', printed, hrun, herr, hout, hprinted⟩

end LineShell
