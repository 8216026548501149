import LineShell.Proofs.Failures
import LineShell.Proofs.Trail

/-!
# Custody — who may change the state of a session

With the builtins that every session starts with, the variables change only by `export` and `unset`,
and these touch only names that are identifiers. The working directory changes only by a `cd` that
succeeds, and then it is a folded absolute path that leads to a directory.

* `Path.Settled` — absolute paths without components that stand for others, and
  `Path.settled_resolve`;
* `Stance.ward` — the variables that are not named by identifiers, and the working directory;
* `standard_custody`, `runOn_cd` — what builtins do to the stance, the ward and the journal;
* `Visit.Calls`, `Visit.Moves`, `Visit.Arrives` — a builtin is called, a `cd` succeeds, and where it
  leads;
* `Session.runAll`, `Session.Reaches` — lines one after the other, and the stages that a line comes
  by;
* `run_leads_of_custody` — what builtins may do, one at a time, is all that a line does;
* `state_stays_in_custody` — what any lines leave of the state.
-/

namespace LineShell

/-! ## Paths -/

theorem Text.not_mem_of_mem_splitOn {sep : Char} {cs piece : List Char}
    (h : piece ∈ splitOn sep cs) :
    sep ∉ piece := by
  induction cs generalizing piece with
  | nil =>
      rw [splitOn, List.mem_singleton] at h
      simp [h]
  | cons c cs ih =>
      rw [splitOn] at h
      split at h
      · rcases List.mem_cons.1 h with rfl | hrest
        · simp
        · exact ih hrest
      · next hc =>
        cases hsplit : splitOn sep cs with
        | nil =>
            rw [hsplit, List.mem_singleton] at h
            simp [h, Ne.symm hc]
        | cons first rest =>
            rw [hsplit] at h ih
            rcases List.mem_cons.1 h with rfl | hrest
            · simpa [Ne.symm hc] using ih List.mem_cons_self
            · exact ih (List.mem_cons_of_mem _ hrest)

namespace Path

/-- A component that stands for nothing but itself. -/
structure IsProper (name : String) : Prop where
  ne_empty : name ≠ ""
  ne_dot : name ≠ "."
  ne_dots : name ≠ ".."
  no_slash : '/' ∉ name.toList

/-- An absolute path with proper components only. -/
def Settled (path : String) : Prop :=
  ∃ names, path = absolute names ∧ ∀ name ∈ names, IsProper name

theorem isAbsolute_absolute (names : List String) : isAbsolute (absolute names) = true := by
  simp [isAbsolute, absolute]

/-- A settled path is absolute. -/
theorem Settled.isAbsolute {path : String} (h : Settled path) : isAbsolute path = true := by
  rcases h with ⟨names, rfl, -⟩
  exact isAbsolute_absolute names

/-- What is left after pushing names was there before, or is a name that goes down. -/
theorem mem_foldl_push {names acc : List String} {name : String} (h : name ∈ names.foldl push acc) :
    name ∈ acc ∨ name ∈ names ∧ name ≠ "." ∧ name ≠ ".." := by
  induction names generalizing acc with
  | nil => exact .inl h
  | cons first rest ih =>
      rcases ih h with hacc | ⟨hrest, hproper⟩
      · rw [push] at hacc
        split at hacc
        · exact .inl hacc
        · split at hacc
          · exact .inl (List.mem_of_mem_drop hacc)
          · rcases List.mem_cons.1 hacc with rfl | hacc
            · exact .inr ⟨List.mem_cons_self, ‹_›, ‹_›⟩
            · exact .inl hacc
      · exact .inr ⟨List.mem_cons_of_mem _ hrest, hproper⟩

theorem ne_empty_of_mem_components {path name : String} (h : name ∈ components path) :
    name ≠ "" ∧ '/' ∉ name.toList := by
  rw [components, List.mem_map] at h
  rcases h with ⟨piece, hpiece, rfl⟩
  rw [List.mem_filter] at hpiece
  constructor
  · intro hempty
    have hnil : piece = [] := by simpa using congrArg String.toList hempty
    simp [hnil] at hpiece
  · rw [String.toList_ofList]
    exact Text.not_mem_of_mem_splitOn hpiece.1

/-- Only proper names are left after folding. -/
theorem isProper_of_mem_fold {names : List String} {name : String}
    (hnames : ∀ n ∈ names, n ≠ "" ∧ '/' ∉ n.toList) (h : name ∈ fold names) : IsProper name := by
  rw [fold, List.mem_reverse] at h
  rcases mem_foldl_push h with hnil | ⟨hmem, hdot, hdots⟩
  · cases hnil
  · exact ⟨(hnames name hmem).1, hdot, hdots, (hnames name hmem).2⟩

/-- Seen from an absolute path, every path is settled. -/
theorem settled_resolve {cwd : String} (h : isAbsolute cwd = true) (path : String) :
    Settled (resolve cwd path) := by
  rw [resolve]
  split
  · refine ⟨_, rfl, fun name hname => isProper_of_mem_fold (fun n hn => ?_) hname⟩
    exact ne_empty_of_mem_components hn
  · simp only [h, Bool.true_or, if_true]
    refine ⟨_, rfl, fun name hname => isProper_of_mem_fold (fun n hn => ?_) hname⟩
    rcases List.mem_append.1 hn with hn | hn
    · exact ne_empty_of_mem_components hn
    · exact ne_empty_of_mem_components hn

end Path

/-! ## Builtins -/

/-- What is known of the names that are not identifiers. -/
def Environment.foreign (e : Environment) (name : String) : Standing :=
  if isIdentifier name then {} else e.standing name

/-- What only `cd` may change: the variables that are not named by identifiers, and the working
directory. -/
def Stance.ward (x : Stance) : (String → Standing) × String :=
  (x.1.foreign, x.2)

/-- The ward includes the working directory. -/
theorem Stance.cwd_eq_of_ward_eq {x y : Stance} (h : x.ward = y.ward) : x.2 = y.2 := by
  have hcwd := congrArg Prod.snd h
  exact hcwd

def Desk.stance (d : Desk) : Stance :=
  d.scene.stance

/-- What is left alone by all that only writes and changes the disk: the stance and the journal. -/
def Desk.holdings (d : Desk) : Stance × List Log.Event :=
  (d.stance, d.scene.journal)

/-- The ward of a desk. -/
def Desk.ward (d : Desk) : (String → Standing) × String :=
  Stance.ward d.stance

section Actions

variable {α : Type} {x : Action α}

theorem Keeps.stance (h : Keeps Desk.holdings x) : Keeps Desk.stance x :=
  h.comp Prod.fst

theorem Keeps.journal (h : Keeps Desk.holdings x) : Keeps (fun d : Desk => d.scene.journal) x :=
  h.comp Prod.snd

theorem Keeps.ward (h : Keeps Desk.stance x) : Keeps Desk.ward x :=
  h.comp Stance.ward

theorem print_keeps_holdings (bs : Bytes) : Keeps Desk.holdings (Action.print bs) := by
  intro d
  rw [Action.print, runOn_bind_of_ok (runOn_get d)]
  rcases d.out.write bs d.scene.host with ⟨out, host, fault | done⟩ <;> rfl

theorem complaint_keeps_holdings (bs : Bytes) : Keeps Desk.holdings (Action.report bs) := by
  intro d
  rw [Action.report, runOn_bind_of_ok (runOn_get d)]
  rcases d.err.write bs d.scene.host with ⟨err, host, fault | done⟩ <;> rfl

theorem complain_keeps_holdings (text : String) : Keeps Desk.holdings (Action.complain text) :=
  complaint_keeps_holdings _

theorem refuseOptions_keeps_holdings (command : String) (unknown : List String) :
    Keeps Desk.holdings (Action.refuseOptions command unknown) :=
  .bind (complain_keeps_holdings _) fun _ => .pure _

theorem Keeps.ite {σ γ ε β : Type} {view : σ → γ} {c : Prop} [Decidable c]
    {x y : ExceptT ε (StateM σ) β} (hx : Keeps view x) (hy : Keeps view y) :
    Keeps view (if c then x else y) := by
  split
  · exact hx
  · exact hy

theorem forOperands_keeps_holdings (act : Disk → String → Disk × Except Fault Unit)
    (message : String → Fault → String) (operands : List String) :
    Keeps Desk.holdings (Builtin.forOperands act message operands) := by
  induction operands with
  | nil => exact .pure _
  | cons operand rest ih =>
      refine .bind (fun _ => rfl) fun s => .bind (fun _ => rfl) fun _ => ?_
      split
      · exact ih
      · exact .bind (complain_keeps_holdings _) fun _ => .bind ih fun _ => .pure _

theorem withOptions_keeps_holdings {command missing : String} {known : String → Bool}
    {args : List String} {run : Options → Action Completion}
    (h : ∀ o, Keeps Desk.holdings (run o)) :
    Keeps Desk.holdings (Builtin.withOptions command missing known args run) :=
  .ite (refuseOptions_keeps_holdings _ _) (.ite (.bind (complain_keeps_holdings _) fun _ =>
    .pure _) (h _))

theorem ls_keeps_holdings (args : List String) (stdin : Option Bytes) :
    Keeps Desk.holdings (Builtin.ls args stdin) := by
  refine .ite (refuseOptions_keeps_holdings _ _) (.bind .get fun _ =>
    .bind (print_keeps_holdings _) fun _ => ?_)
  exact .ite (.pure _) (.bind (complaint_keeps_holdings _) fun _ => .pure _)

/-- Changing the variable of an identifier leaves the other names alone. -/
theorem modifyEnv_keeps_ward {f : Environment → Environment}
    (h : ∀ e name, isIdentifier name = false → (f e).standing name = e.standing name) :
    Keeps Desk.ward (Action.modifyEnv f) := by
  intro d
  have hforeign : (f d.scene.env).foreign = d.scene.env.foreign := by
    funext name
    rw [Environment.foreign, Environment.foreign]
    split
    · rfl
    · exact h _ _ (by simpa using ‹¬ isIdentifier name = true›)
  exact congrArg (fun e => (e, d.scene.cwd)) hforeign

theorem ne_of_isIdentifier {changed name : String} (h : isIdentifier changed = true)
    (hname : isIdentifier name = false) : changed ≠ name := by
  rintro rfl
  rw [h] at hname
  cases hname

/-- Export sets only names that are identifiers. -/
theorem exportAll_keeps_ward (args : List String) : Keeps Desk.ward (Builtin.exportAll args) := by
  induction args with
  | nil => exact .pure _
  | cons arg rest ih =>
      rw [Builtin.exportAll]
      dsimp only
      split
      · next hid =>
        refine .bind (modifyEnv_keeps_ward fun e name hname => ?_) fun _ => ih
        rw [Environment.standing_exportName, if_neg (ne_of_isIdentifier hid hname)]
      · exact .bind (complain_keeps_holdings _).stance.ward fun _ => .bind ih fun _ => .pure _

/-- Unset takes only names that are identifiers. -/
theorem unsetAll_keeps_ward (args : List String) : Keeps Desk.ward (Builtin.unsetAll args) := by
  induction args with
  | nil => exact .pure _
  | cons arg rest ih =>
      rw [Builtin.unsetAll]
      dsimp only
      split
      · next hid =>
        refine .bind (fun _ => rfl) fun s => .bind (modifyEnv_keeps_ward fun e name hname =>
          ?_) fun _ => ?_
        · rw [Environment.standing_unset, if_neg (ne_of_isIdentifier hid hname)]
        · exact .ite (.bind (fun _ => rfl) fun _ => ih) ih
      · exact .bind (complain_keeps_holdings _).stance.ward fun _ => .bind ih fun _ => .pure _

theorem cdMessage_keeps_holdings (text : String) :
    Keeps Desk.holdings (do
      Action.complain text
      return Completion.failure) :=
  .bind (complain_keeps_holdings _) fun _ => .pure _

theorem complain_ne_success (text : String) (d : Desk) :
    (runOn (do
      Action.complain text
      return Completion.failure) d).1 ≠ .ok .success := by
  rw [runOn_bind]
  rcases runOn (Action.complain text) d with ⟨e | done, d'⟩ <;>
    simp [Completion.success, Completion.failure]

/-- `cd` goes to a directory, records that and succeeds, or it stays where it is and does not
succeed. -/
theorem runOn_cdTo (shown path : String) (d : Desk) :
    ((runOn (Builtin.cdTo shown path) d).1 ≠ .ok .success ∧
      (runOn (Builtin.cdTo shown path) d).2.holdings = d.holdings) ∨
    (d.scene.host.disk.isDirectory path = true ∧
      (runOn (Builtin.cdTo shown path) d).2.holdings =
        ((d.scene.env, path), d.scene.journal ++ [.changingDirectory d.scene.cwd path]) ∧
      (runOn (Builtin.cdTo shown path) d).1 = .ok .success) := by
  rw [Builtin.cdTo, runOn_bind_of_ok (show runOn Action.scene d = (.ok d.scene, d) from rfl),
    Disk.isDirectory]
  cases d.scene.host.disk.stat path with
  | error fault => exact .inl ⟨complain_ne_success _ d, cdMessage_keeps_holdings _ d⟩
  | ok e =>
      dsimp only
      cases e.isDirectory with
      | true => exact .inr ⟨rfl, Prod.ext rfl (d.scene.journal_noting _), rfl⟩
      | false => exact .inl ⟨complain_ne_success _ d, cdMessage_keeps_holdings _ d⟩

/-- A change of directory fails and leaves all as it was, or ends in a directory of the disk. -/
theorem runOn_cd (args : List String) (stdin : Option Bytes) (d : Desk) :
    ((runOn (Builtin.cd args stdin) d).1 ≠ .ok .success ∧
      (runOn (Builtin.cd args stdin) d).2.holdings = d.holdings) ∨
    ∃ operand, d.scene.host.disk.isDirectory (Path.resolve d.scene.cwd operand) = true ∧
      (runOn (Builtin.cd args stdin) d).2.holdings =
        ((d.scene.env, Path.resolve d.scene.cwd operand),
          d.scene.journal ++ [.changingDirectory d.scene.cwd (Path.resolve d.scene.cwd operand)]) ∧
      (runOn (Builtin.cd args stdin) d).1 = .ok .success := by
  rw [Builtin.cd, runOn_bind_of_ok (show runOn Action.scene d = (.ok d.scene, d) from rfl)]
  rcases args.head? with _ | raw
  · rcases d.scene.home with _ | home
    · exact .inl ⟨complain_ne_success _ d, cdMessage_keeps_holdings _ d⟩
    · exact (runOn_cdTo home _ d).imp_right fun h => ⟨home, h⟩
  · exact (runOn_cdTo raw _ d).imp_right fun h => ⟨Path.expandHome d.scene.home raw, h⟩

/-- Of the builtins that every session starts with, only `cd`, `export` and `unset` do more than to
write and to change the disk. -/
theorem standard_custody {name : String} {b : Builtin} (h : Builtin.standard.lookup name = some b) :
    (name = "cd" ∧ b = Builtin.cd) ∨
      (name = "export" ∧ b = fun args _ => Builtin.exportAll args) ∨
      (name = "unset" ∧ b = fun args _ => Builtin.unsetAll args) ∨
      ∀ args stdin, Keeps Desk.holdings (b args stdin) := by
  -- One case for each builtin of the table.
  rcases List.lookup_eq_some_iff.1 h with ⟨before, after, htable, -⟩
  have hmem : (name, b) ∈ Builtin.standard := by simp [htable]
  simp only [Builtin.standard, List.mem_cons, Prod.mk.injEq, List.not_mem_nil, or_false] at hmem
  rcases hmem with hcd | ⟨-, rfl⟩ | ⟨-, rfl⟩ | ⟨-, rfl⟩ | ⟨-, rfl⟩ | ⟨-, rfl⟩ | ⟨-, rfl⟩ |
    hexport | hunset | ⟨-, rfl⟩ | ⟨-, rfl⟩ | ⟨-, rfl⟩ | ⟨-, rfl⟩
  · exact .inl hcd
  · exact .inr (.inr (.inr fun _ _ => .bind (fun _ => rfl) fun _ =>
      .bind (print_keeps_holdings _) fun _ => .pure _))
  · exact .inr (.inr (.inr ls_keeps_holdings))
  · exact .inr (.inr (.inr fun _ _ => withOptions_keeps_holdings fun _ =>
      forOperands_keeps_holdings _ _ _))
  · exact .inr (.inr (.inr fun _ _ => withOptions_keeps_holdings fun _ =>
      forOperands_keeps_holdings _ _ _))
  · exact .inr (.inr (.inr fun _ _ => withOptions_keeps_holdings fun _ =>
      forOperands_keeps_holdings _ _ _))
  · exact .inr (.inr (.inr fun _ _ => .bind (print_keeps_holdings _) fun _ => .pure _))
  · exact .inr (.inl hexport)
  · exact .inr (.inr (.inl hunset))
  · exact .inr (.inr (.inr fun _ _ => .bind .get fun _ => .bind (print_keeps_holdings _) fun _ =>
      .pure _))
  · exact .inr (.inr (.inr fun _ _ => .pure _))
  · exact .inr (.inr (.inr fun _ _ => .pure _))
  · exact .inr (.inr (.inr fun _ _ => .pure _))

end Actions

/-! ## Stages -/

section Stages

variable {sub : Substitution} {wiring w : Wiring} {v : Visit} {stage : Stage String} {b : Builtin}
  {stdin : Option Bytes} {files : StageFiles} {err : Sink} {s t : Session}

/-- The stage runs the builtin of that name. -/
def Visit.Calls (sub : Substitution) (wiring : Wiring) (v : Visit) (name : String) : Prop :=
  ∃ stage b stdin files err t, v.Performs sub wiring stage b stdin files err t ∧ stage.name = name

/-- The stage is a `cd` that succeeds. -/
def Visit.Moves (sub : Substitution) (wiring : Wiring) (v : Visit) : Prop :=
  ∃ args stdin out ended, v.result = .ok ended ∧
    v.Meets sub wiring (.builtin "cd" args stdin (.ok .success) out) ended

/-- The stage leaves the session in a settled working directory, which led to a directory when the
command of the stage ran. -/
structure Visit.Arrives (sub : Substitution) (wiring : Wiring) (v : Visit) : Prop where
  settled : Path.Settled v.after.scene.cwd
  directory : ∃ stage files err t, v.Ready sub wiring stage files err t ∧
    t.scene.host.disk.isDirectory v.after.scene.cwd = true

theorem lookup_cd : Builtin.standard.lookup "cd" = some Builtin.cd := by
  simp [Builtin.standard]

/-- What a builtin of the standard table does to the stance: nothing, or it is one of three. -/
theorem Visit.Performs.custody (h : v.Performs sub wiring stage b stdin files err t)
    (hrun : v.Runs sub wiring) (htable : t.table = Builtin.standard) :
    (v.Moves sub wiring ∧ ∃ operand,
      v.after.stance = (t.scene.env, Path.resolve t.scene.cwd operand)) ∨
    ((v.Calls sub wiring "export" ∨ v.Calls sub wiring "unset") ∧
      Stance.ward v.after.stance = Stance.ward t.stance) ∨
    v.after.stance = t.stance := by
  have hfound := h.found
  rw [htable] at hfound
  -- Of the builtins only `cd` moves, and only `export` and `unset` touch variables.
  rcases standard_custody hfound with ⟨hname, rfl⟩ | ⟨hname, rfl⟩ | ⟨hname, rfl⟩ | hkeeps
  · rcases runOn_cd stage.args stdin (v.desk stage files err t) with ⟨-, hstay⟩ |
      ⟨operand, -, hmoved, hdone⟩
    · rw [h.stance hrun]
      exact .inr (.inr (congrArg Prod.fst hstay))
    · rcases h.meets hrun (Prod.ext hdone rfl) with ⟨ended, hr, hmeets⟩
      rw [hname] at hmeets
      exact .inl ⟨⟨_, _, _, ended, hr, hmeets⟩, operand,
        (h.stance hrun).trans (congrArg Prod.fst hmoved)⟩
  · refine .inr (.inl ⟨.inl ⟨_, _, _, _, _, _, h, hname⟩, ?_⟩)
    rw [h.stance hrun]
    exact exportAll_keeps_ward stage.args (v.desk stage files err t)
  · refine .inr (.inl ⟨.inr ⟨_, _, _, _, _, _, h, hname⟩, ?_⟩)
    rw [h.stance hrun]
    exact unsetAll_keeps_ward stage.args (v.desk stage files err t)
  · rw [h.stance hrun]
    exact .inr (.inr ((hkeeps stage.args stdin).stance (v.desk stage files err t)))

/-- A `cd` that succeeds arrives, if it starts from an absolute path. -/
theorem Visit.Moves.arrives (h : v.Moves sub wiring) (hrun : v.Runs sub wiring)
    (hready : ∀ stage files err t, v.Ready sub wiring stage files err t →
      t.table = Builtin.standard ∧ Path.isAbsolute t.scene.cwd = true) :
    v.Arrives sub wiring := by
  rcases h with ⟨args, stdin, out, ended, -, hmeets⟩
  rcases hmeets.performs with ⟨stage, b, files, err, t, desk, hperforms, hname, -, hanswer⟩
  rcases hready stage files err t hperforms.ready with ⟨htable, hcwd⟩
  have hcd : b = Builtin.cd := by
    have hfound := hperforms.found
    rw [htable, hname, lookup_cd] at hfound
    exact (Option.some.inj hfound).symm
  subst hcd
  rcases runOn_cd stage.args stdin (v.desk stage files err t) with ⟨hfail, -⟩ |
    ⟨operand, hdir, hmoved, -⟩
  · exact (hfail (congrArg Prod.fst hanswer)).elim
  · have hafter : v.after.scene.cwd = Path.resolve t.scene.cwd operand :=
      congrArg Prod.snd ((hperforms.stance hrun).trans (congrArg Prod.fst hmoved))
    refine ⟨?_, stage, files, err, t, hperforms.ready, ?_⟩ <;> rw [hafter]
    · exact Path.settled_resolve hcwd operand
    · exact hdir

end Stages

/-! ## Lines -/

namespace Session

/-- A session after lines, each with its own wiring. -/
def runAll (s : Session) : List (String × Wiring) → Session
  | [] => s
  | (line, wiring) :: rest => (runOn (run line wiring) s).2.runAll rest

/-- The stage `v` is run while the session runs the line, with `rest` levels left and wired as `w`
says. -/
def Reaches (s : Session) (line : String) (wiring : Wiring) (rest : Nat) (w : Wiring) (v : Visit) :
    Prop :=
  ∃ p, Pipeline.parse line = .ok p ∧ Occurs s.room p wiring (s.recording line) rest w v

end Session

section Lines

variable {s t : Session} {line : String} {wiring w : Wiring} {rest : Nat} {v : Visit}
  {stage : Stage String} {files : StageFiles} {err : Sink}

/-- A line that cannot be read is recorded, and that is all. -/
theorem runOn_run_of_malformed {e : SyntaxError} (h : Pipeline.parse line = .error e)
    (wiring : Wiring) (s : Session) :
    runOn (Session.run line wiring) s = (.error (.malformed e), s.recording line) := by
  rw [Session.run, runOn_bind_of_ok (runOn_get s), runOn_bind_of_ok (runOn_note _ _),
    runOn_bind_of_ok (runOn_notes _ _), h, Session.recording, Scene.notingAll_cons]
  rfl

/-- A line that can be read is run in the room of the session. -/
theorem runOn_run_eq_runWithin {p : Pipeline} (h : Pipeline.parse line = .ok p) (wiring : Wiring)
    (s : Session) :
    runOn (Session.run line wiring) s = runOn (runWithin s.room p wiring) (s.recording line) := by
  rw [runOn_run h, Session.execute, runOn_bind_of_ok (runOn_get _)]
  rfl

/-- No line changes the frame of the session. -/
theorem run_keeps_frame (line : String) (wiring : Wiring) :
    Keeps Session.frame (Session.run line wiring) := by
  intro s
  cases hparse : Pipeline.parse line with
  | error e => rw [runOn_run_of_malformed hparse]; rfl
  | ok p => rw [runOn_run_eq_runWithin hparse]; exact runWithin_keeps_frame _ _ _ (s.recording line)

/-- A line leads where its builtins lead. -/
theorem run_leads {T : Stance → Stance → Prop} (hrefl : ∀ x, T x x)
    (htrans : ∀ x y z, T x y → T y z → T x z)
    (h : ∀ rest w v stage b stdin files err t, s.Reaches line wiring rest w v →
      v.Performs (substitutionWithin rest) w stage b stdin files err t →
        T t.stance v.after.stance) :
    Leads T (Session.run line wiring) s := by
  cases hparse : Pipeline.parse line with
  | error e =>
      rw [Leads, runOn_run_of_malformed hparse]
      exact hrefl _
  | ok p =>
      rw [Leads, runOn_run_eq_runWithin hparse]
      refine runWithin_leads hrefl htrans (s := s.recording line) ?_
      exact fun rest w v stage b stdin files err t hv =>
        h rest w v stage b stdin files err t ⟨p, hparse, hv⟩

/-- So does everything up to the moment at which a stage of it, at any level, runs its command. -/
theorem Session.Reaches.leads_ready {T : Stance → Stance → Prop} (hrefl : ∀ x, T x x)
    (htrans : ∀ x y z, T x y → T y z → T x z) (hv : s.Reaches line wiring rest w v)
    (h : ∀ rest w v stage b stdin files err t, s.Reaches line wiring rest w v →
      v.Performs (substitutionWithin rest) w stage b stdin files err t → T t.stance v.after.stance)
    (ready : v.Ready (substitutionWithin rest) w stage files err t) : T s.stance t.stance := by
  rcases hv with ⟨p, hparse, hv⟩
  refine hv.leads_ready hrefl htrans ?_ ready
  exact fun rest w v stage b stdin files err t hv =>
    h rest w v stage b stdin files err t ⟨p, hparse, hv⟩

/-- A stage that a line reaches is run with the substitutions of its depth. -/
theorem Session.Reaches.runs (hv : s.Reaches line wiring rest w v) :
    v.Runs (substitutionWithin rest) w := by
  rcases hv with ⟨p, -, hv⟩
  exact hv.runs

/-- Every stage looks its name up in the table of the session. -/
theorem Session.Reaches.table_eq (hv : s.Reaches line wiring rest w v)
    (ready : v.Ready (substitutionWithin rest) w stage files err t) : t.table = s.table := by
  rcases hv with ⟨p, -, hv⟩
  exact (Session.table_eq_of_frame_eq (ready.frame_eq (substitutionWithin_keepsFrame rest))).trans
    hv.table_eq

end Lines

/-! ## Custody -/

section Custody

variable {s : Session} {line : String} {wiring : Wiring}

/-- What every line keeps holds after any lines. -/
theorem runAll_invariant {P : Session → Prop}
    (h : ∀ s line wiring, P s → P (runOn (Session.run line wiring) s).2) (hs : P s)
    (lines : List (String × Wiring)) : P (s.runAll lines) := by
  induction lines generalizing s with
  | nil => exact hs
  | cons first rest ih => exact ih (h s first.1 first.2 hs)

variable (htable : s.table = Builtin.standard)
include htable

/-- What builtins may do to the stance, one at a time, is all that a line does to it. -/
theorem run_leads_of_custody {T : Stance → Stance → Prop} (hrefl : ∀ x, T x x)
    (htrans : ∀ x y z, T x y → T y z → T x z)
    (hmove : ∀ rest w v (t : Session) operand, s.Reaches line wiring rest w v →
    v.Moves (substitutionWithin rest) w →
      v.after.stance = (t.scene.env, Path.resolve t.scene.cwd operand) → T t.stance v.after.stance)
    (hcall : ∀ rest w v (t : Session), s.Reaches line wiring rest w v →
      v.Calls (substitutionWithin rest) w "export" ∨ v.Calls (substitutionWithin rest) w "unset" →
      Stance.ward v.after.stance = Stance.ward t.stance → T t.stance v.after.stance) :
    Leads T (Session.run line wiring) s ∧
      ∀ rest w v stage files err t, s.Reaches line wiring rest w v →
        v.Ready (substitutionWithin rest) w stage files err t → T s.stance t.stance := by
  have heach : ∀ rest w v stage b stdin files err t, s.Reaches line wiring rest w v →
      v.Performs (substitutionWithin rest) w stage b stdin files err t →
        T t.stance v.after.stance := by
    intro rest w v stage b stdin files err t hv hperforms
    rcases hperforms.custody hv.runs ((hv.table_eq hperforms.ready).trans htable) with
      ⟨hmoves, operand, hmoved⟩ | ⟨hcalls, hward⟩ | hstance
    · exact hmove rest w v t operand hv hmoves hmoved
    · exact hcall rest w v t hv hcalls hward
    · rw [hstance]
      exact hrefl _
  exact ⟨run_leads hrefl htrans heach, fun _ _ _ _ _ _ _ hv => hv.leads_ready hrefl htrans heach⟩

/-- No line sets or removes a variable whose name is not an identifier. -/
theorem run_keeps_foreign :
    (runOn (Session.run line wiring) s).2.scene.env.foreign = s.scene.env.foreign := by
  refine (run_leads_of_custody (T := fun x y => y.1.foreign = x.1.foreign) htable (fun _ => rfl)
    (fun _ _ _ hxy hyz => hyz.trans hxy) ?_ ?_).1
  · intro rest w v t operand _ _ hmoved
    rw [hmoved]
    rfl
  · intro rest w v t _ _ hward
    exact congrArg Prod.fst hward

/-- Absolute paths lead to absolute paths. -/
theorem run_keeps_absolute (hcwd : Path.isAbsolute s.scene.cwd = true) :
    Path.isAbsolute (runOn (Session.run line wiring) s).2.scene.cwd = true ∧
      ∀ rest w v stage files err t, s.Reaches line wiring rest w v →
        v.Ready (substitutionWithin rest) w stage files err t →
        Path.isAbsolute t.scene.cwd = true := by
  have hleads := @run_leads_of_custody s line wiring htable
    (fun x y => Path.isAbsolute x.2 = true → Path.isAbsolute y.2 = true)
    (fun _ => id) (fun _ _ _ hxy hyz => hyz ∘ hxy) ?_ ?_
  · exact ⟨hleads.1 hcwd, fun rest w v stage files err t hv hready =>
      hleads.2 rest w v stage files err t hv hready hcwd⟩
  · intro rest w v t operand _ _ hmoved habsolute
    rw [hmoved]
    exact (Path.settled_resolve habsolute operand).isAbsolute
  · intro rest w v t _ _ hward habsolute
    rw [Stance.cwd_eq_of_ward_eq hward]
    exact habsolute

/-- The variables change only if `export` or `unset` is called. -/
theorem run_keeps_variables :
    (runOn (Session.run line wiring) s).2.scene.env = s.scene.env ∨
      ∃ rest w v, s.Reaches line wiring rest w v ∧
        (v.Calls (substitutionWithin rest) w "export" ∨
          v.Calls (substitutionWithin rest) w "unset") := by
  refine (run_leads_of_custody (T := fun x y => y.1 = x.1 ∨
    ∃ rest w v, s.Reaches line wiring rest w v ∧
    (v.Calls (substitutionWithin rest) w "export" ∨ v.Calls (substitutionWithin rest) w "unset"))
      htable
    (fun _ => .inl rfl) ?_ ?_ ?_).1
  · rintro x y z (hxy | hcalled) (hyz | hcalled')
    · exact .inl (hyz.trans hxy)
    · exact .inr hcalled'
    · exact .inr hcalled
    · exact .inr hcalled
  · intro rest w v t operand _ _ hmoved
    rw [hmoved]
    exact .inl rfl
  · intro rest w v t hv hcalls _
    exact .inr ⟨rest, w, v, hv, hcalls⟩

/-- The working directory changes only by a `cd` that succeeds, and the last one decides. -/
theorem run_keeps_directory :
    (runOn (Session.run line wiring) s).2.scene.cwd = s.scene.cwd ∨
      ∃ rest w v, s.Reaches line wiring rest w v ∧ v.Moves (substitutionWithin rest) w ∧
        (runOn (Session.run line wiring) s).2.scene.cwd = v.after.scene.cwd := by
  refine (run_leads_of_custody (T := fun x y => y.2 = x.2 ∨
    ∃ rest w v, s.Reaches line wiring rest w v ∧
    v.Moves (substitutionWithin rest) w ∧ y.2 = v.after.scene.cwd) htable
    (fun _ => .inl rfl) ?_ ?_ ?_).1
  · rintro x y z hxy (hyz | hmoved)
    · rwa [hyz]
    · exact .inr hmoved
  · intro rest w v t operand hv hmoves _
    exact .inr ⟨rest, w, v, hv, hmoves, rfl⟩
  · intro rest w v t _ _ hward
    exact .inl (Stance.cwd_eq_of_ward_eq hward)

end Custody

/-- A session with the builtins that every session starts with, in an absolute working directory,
after any lines. A variable whose name is not an identifier is what it was at the start, with its
marks, and every name that is set now and was not then is an identifier. In the next line, whatever
it ends in, the variables change only if `export` or `unset` is called at some level. The working
directory changes only by a `cd` that succeeds at some level, and each such `cd` leaves a settled
path that led to a directory when it ran. -/
theorem state_stays_in_custody (s : Session) (htable : s.table = Builtin.standard)
    (hcwd : Path.isAbsolute s.scene.cwd = true) (lines : List (String × Wiring)) :
    (∀ name, isIdentifier name = false →
      (s.runAll lines).scene.env.standing name = s.scene.env.standing name) ∧
    (∀ name, (s.runAll lines).scene.env.contains name = true → s.scene.env.contains name = false →
      isIdentifier name = true) ∧
    ∀ line wiring t u, s.runAll lines = t → (runOn (Session.run line wiring) t).2 = u →
      (u.scene.env = t.scene.env ∨ ∃ rest w v, t.Reaches line wiring rest w v ∧
        (v.Calls (substitutionWithin rest) w "export" ∨
          v.Calls (substitutionWithin rest) w "unset")) ∧
      (u.scene.cwd = t.scene.cwd ∨ ∃ rest w v, t.Reaches line wiring rest w v ∧
        v.Moves (substitutionWithin rest) w ∧ u.scene.cwd = v.after.scene.cwd) ∧
      ∀ rest w v, t.Reaches line wiring rest w v → v.Moves (substitutionWithin rest) w →
        v.Arrives (substitutionWithin rest) w := by
  -- The table, the foreign variables and the absolute path are kept line by line.
  have hkept := runAll_invariant (s := s) (P := fun t => t.table = Builtin.standard ∧
    Path.isAbsolute t.scene.cwd = true ∧ t.scene.env.foreign = s.scene.env.foreign) ?_ ⟨htable,
      hcwd, rfl⟩ lines
  · rcases hkept with ⟨htable', hcwd', hforeign⟩
    have hstanding : ∀ name, isIdentifier name = false →
        (s.runAll lines).scene.env.standing name = s.scene.env.standing name := by
      intro name hname
      simpa [Environment.foreign, hname] using congrFun hforeign name
    refine ⟨hstanding, ?_, ?_⟩
    · intro name hnow hthen
      cases hname : isIdentifier name with
      | true => rfl
      | false =>
          have hvalue := congrArg Standing.value (hstanding name hname)
          have hsame : (s.runAll lines).scene.env.contains name = s.scene.env.contains name :=
            congrArg Option.isSome hvalue
          rw [hsame, hthen] at hnow
          cases hnow
    · rintro line wiring t u rfl rfl
      refine ⟨run_keeps_variables htable', run_keeps_directory htable', ?_⟩
      intro rest w v hv hmoves
      refine hmoves.arrives hv.runs fun stage files err t ready =>
        ⟨(hv.table_eq ready).trans htable', ?_⟩
      exact (run_keeps_absolute htable' hcwd').2 rest w v stage files err t hv ready
  · rintro t line wiring ⟨htable, hcwd, hforeign⟩
    refine ⟨?_, (run_keeps_absolute htable hcwd).1, (run_keeps_foreign htable).trans hforeign⟩
    exact (Session.table_eq_of_frame_eq (run_keeps_frame line wiring t)).trans htable

/-- A session whose working directory is not there, and which has a variable that nothing can
change. -/
def strandedSession : Session :=
  bareSession.withScene
    { bareSession.scene with env := ({} : Environment).set "a b" "1", cwd := "/gone" }

/-- Out of a directory that is not there, `cd` arrives at the root, and `unset` cannot remove the
variable. -/
theorem root_is_reached :
    (strandedSession.runAll [("unset 'a b'", .captured)]).scene.env.standing "a b" =
      { value := some "1" } ∧
    ∃ rest w v, strandedSession.Reaches "cd .././" .captured rest w v ∧
      v.Moves (substitutionWithin rest) w ∧
      v.Arrives (substitutionWithin rest) w ∧ v.after.scene.cwd = "/" := by
  have hparse : Pipeline.parse "cd .././" = .ok [⟨[.text "cd"], [[.text ".././"]], []⟩] := by
    with_unfolding_all rfl
  have hroot : (runOn (Session.run "cd .././" .captured) strandedSession).2.scene.cwd = "/" := by
    rw [runOn_run hparse]
    rfl
  constructor
  · rw [(state_stays_in_custody strandedSession rfl rfl [("unset 'a b'", .captured)]).1 "a b"
      (by decide)]
    exact (Environment.standing_set _ _ _ _).trans (by simp)
  · rcases (state_stays_in_custody strandedSession rfl rfl []).2.2 "cd .././" .captured _ _ rfl rfl
      with ⟨-, hsame | ⟨rest, w, v, hv, hmoves, hcwd⟩, harrives⟩
    · exact absurd (hroot.symm.trans hsame) (by decide)
    · exact ⟨rest, w, v, hv, hmoves, harrives rest w v hv hmoves, hcwd.symm.trans hroot⟩

end LineShell
