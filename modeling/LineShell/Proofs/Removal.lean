import LineShell.Proofs.Conduct
import LineShell.Proofs.Thinning

/-!
# Removal — what `rm` takes away

`rm` removes what its operands name, one after the other, and reports each operand that it cannot
remove. What is not named and not below what is named stays, whatever links there are, for a removal
never makes a path lead to another entry.

* `Treats` — operands treated in turn, with the fault that each of them is reported with, if any;
* `exists_treats` — the commands that treat operands in turn do so, to the end or to a report that
  cannot be written;
* `Desk.Spares` — a desk after a removal: what may be gone from its disk, and what stays;
* `removeOne_cases` — what becomes of one operand;
* `Treats.spares`, `Treats.gone` — what becomes of all;
* `rm_spares_what_it_is_not_given` — all that `rm` does, and when it succeeds;
* `unknown_flag_keeps_operand` — it can fail without having reported an operand.
-/

namespace LineShell

open Builtin

/-! ## Operands in turn -/

def Desk.disk (d : Desk) : Disk :=
  d.scene.host.disk

def Desk.withDisk (d : Desk) (disk : Disk) : Desk :=
  { d with scene := { d.scene with host := { d.scene.host with disk } } }

@[simp] theorem Desk.err_withDisk (d : Desk) (disk : Disk) : (d.withDisk disk).err = d.err := rfl

@[simp] theorem Desk.disk_withDisk (d : Desk) (disk : Disk) : (d.withDisk disk).disk = disk := rfl

/-- The operands are treated in turn. `verdicts` are the faults that they are reported with, or
nothing for each that is treated well. The rest is left alone once a report cannot be written. -/
inductive Treats (act : Disk → String → Disk × Except Fault Unit)
    (message : String → Fault → String) :
    Desk → List String → List (Option Fault) → Except Error Completion → Desk → Prop where
  | none {d : Desk} : Treats act message d [] [] (.ok .success) d
  | done {d d' : Desk} {operand : String} {rest : List String} {verdicts : List (Option Fault)}
      {r : Except Error Completion} {disk : Disk}
      (acted : act d.disk (d.scene.pathOf operand) = (disk, .ok ()))
      (others : Treats act message (d.withDisk disk) rest verdicts r d') :
      Treats act message d (operand :: rest) (Option.none :: verdicts) r d'
  | reported {d d₁ d' : Desk} {operand : String} {rest : List String}
    {verdicts : List (Option Fault)}
      {r : Except Error Completion} {disk : Disk} {fault : Fault}
      (acted : act d.disk (d.scene.pathOf operand) = (disk, .error fault))
      (said : runOn (Action.complain (message operand fault)) (d.withDisk disk) = (.ok (), d₁))
      (others : Treats act message d₁ rest verdicts r d') :
      Treats act message d (operand :: rest) (some fault :: verdicts) (r.map fun _ => .failure) d'
  | unsaid {d d' : Desk} {operand : String} {rest : List String} {disk : Disk} {fault : Fault}
    {e : Error}
      (acted : act d.disk (d.scene.pathOf operand) = (disk, .error fault))
      (said : runOn (Action.complain (message operand fault)) (d.withDisk disk) = (.error e, d')) :
      Treats act message d (operand :: rest) [some fault] (.error e) d'

section Treating

variable {act : Disk → String → Disk × Except Fault Unit} {message : String → Fault → String}
  {d d' : Desk} {operand : String} {operands rest : List String} {verdicts : List (Option Fault)}
    {r : Except Error Completion}
  {disk : Disk} {fault : Fault}

/-- An operand that goes well leaves its disk to the others. -/
theorem runOn_forOperands_of_ok (h : act d.disk (d.scene.pathOf operand) = (disk, .ok ())) :
    runOn (forOperands act message (operand :: rest)) d =
      runOn (forOperands act message rest) (d.withDisk disk) := by
  rw [forOperands, runOn_bind_of_ok (show runOn Action.scene d = (.ok d.scene, d) from rfl)]
  rw [Desk.disk] at h
  simp only [h]
  rfl

/-- An operand that fails is complained of, and the others are gone through. -/
theorem runOn_forOperands_of_error
    (h : act d.disk (d.scene.pathOf operand) = (disk, .error fault)) :
    runOn (forOperands act message (operand :: rest)) d =
      runOn (do
        Action.complain (message operand fault)
        let _ ← forOperands act message rest
        return .failure) (d.withDisk disk) := by
  rw [forOperands, runOn_bind_of_ok (show runOn Action.scene d = (.ok d.scene, d) from rfl)]
  rw [Desk.disk] at h
  simp only [h]
  rfl

/-- A command that treats its operands in turn gives a verdict on each of them, up to one that it
cannot tell. -/
theorem exists_treats (act : Disk → String → Disk × Except Fault Unit)
    (message : String → Fault → String) (operands : List String) (d : Desk) :
    ∃ verdicts, Treats act message d operands verdicts
      (runOn (forOperands act message operands) d).1
        (runOn (forOperands act message operands) d).2 := by
  induction operands generalizing d with
  | nil => exact ⟨[], .none⟩
  | cons operand rest ih =>
      rcases hact : act d.disk (d.scene.pathOf operand) with ⟨disk, fault | done⟩
      · rw [runOn_forOperands_of_error hact, runOn_bind]
        rcases hsaid : runOn (Action.complain (message operand fault)) (d.withDisk disk)
          with ⟨e | done, d₁⟩
        · exact ⟨_, .unsaid hact hsaid⟩
        · rcases ih d₁ with ⟨verdicts, hrest⟩
          refine ⟨some fault :: verdicts, ?_⟩
          have hreported := Treats.reported hact hsaid hrest
          dsimp only
          rw [runOn_bind]
          rcases hres : runOn (forOperands act message rest) d₁ with ⟨e | c, d'⟩ <;>
            rw [hres] at hreported <;>
            exact hreported
      · rw [runOn_forOperands_of_ok hact]
        rcases ih (d.withDisk disk) with ⟨verdicts, hrest⟩
        exact ⟨Option.none :: verdicts, .done hact hrest⟩

namespace Treats

/-- There is a verdict on every operand if the reports could be written. -/
theorem length_eq (h : Treats act message d operands verdicts r d') {c : Completion}
    (hr : r = .ok c) :
    verdicts.length = operands.length := by
  induction h generalizing c with
  | none => rfl
  | done _ _ ih => rw [List.length_cons, List.length_cons, ih hr]
  | @reported _ _ _ _ _ _ r _ _ _ _ _ ih =>
      cases r with
      | error e => cases hr
      | ok c' => rw [List.length_cons, List.length_cons, ih rfl]
  | unsaid => cases hr

/-- Success means that no operand was reported. -/
theorem success_iff (h : Treats act message d operands verdicts r d') :
    r = .ok .success ↔ ∀ verdict ∈ verdicts, verdict = Option.none := by
  induction h with
  | none => simp
  | done _ _ ih => simpa using ih
  | @reported _ _ _ _ _ _ r _ _ _ _ _ _ =>
      cases r <;> simp [Except.map, Completion.success, Completion.failure]
  | unsaid => simp

/-- The status is that of success or that of failure. -/
theorem completion (h : Treats act message d operands verdicts r d') {c : Completion}
    (hr : r = .ok c) :
    c = .success ∨ c = .failure := by
  induction h generalizing c with
  | none =>
      cases hr
      exact .inl rfl
  | done _ _ ih => exact ih hr
  | @reported _ _ _ _ _ _ r _ _ _ _ _ _ =>
      cases r with
      | error e => cases hr
      | ok c' =>
          cases hr
          exact .inr rfl
  | unsaid => cases hr

end Treats

/-- What is reported of operands, given the verdicts on them. -/
def reports (message : String → Fault → String) (operands : List String)
    (verdicts : List (Option Fault)) : Bytes :=
  (operands.zip verdicts).flatMap fun judged =>
    match judged.2 with
    | none => []
    | some fault => Utf8.encode (message judged.1 fault ++ "\n")

/-- Memory takes every report. -/
theorem Treats.told (h : Treats act message d operands verdicts r d') {bytes : Bytes}
    (herr : d.err = .buffer bytes) :
    d'.err = .buffer (bytes ++ reports message operands verdicts) ∧ ∃ c, r = .ok c := by
  induction h generalizing bytes with
  | none => exact ⟨by simp [herr, reports], _, rfl⟩
  | done _ _ ih =>
      rcases @ih bytes herr with ⟨hd', c, rfl⟩
      exact ⟨by simpa [reports] using hd', c, rfl⟩
  | reported _ said _ ih =>
      rw [Action.complain, runOn_report_of_buffer ((Desk.err_withDisk _ _).trans herr)] at said
      cases said
      rcases ih rfl with ⟨hd', c, rfl⟩
      exact ⟨by simpa [reports, List.append_assoc] using hd', _, rfl⟩
  | unsaid _ said =>
      rw [Action.complain, runOn_report_of_buffer ((Desk.err_withDisk _ _).trans herr)] at said
      cases said

end Treating

/-! ## What stays -/

/-- The file that a sink writes to. -/
def Sink.route? : Sink → Option Route
  | .file handle => some handle.route
  | _ => none

/-- A desk after entries at the routes `named` may have been taken away. The file that reports go to
may have been written to, and without `recursive` every directory is still there. -/
structure Desk.Spares (recursive : Bool) (named : Route → Prop) (d d' : Desk) : Prop where
  cleared : d.disk.Cleared named (fun route => d.err.route? = some route) d'.disk
  directories : recursive = false → d.disk.KeepsDirectories d'.disk
  err : d'.err.route? = d.err.route?
  pathOf : d'.scene.pathOf = d.scene.pathOf

def Desk.Names (d : Desk) (operands : List String) (route : Route) : Prop :=
  ∃ operand ∈ operands, ∃ e, d.disk.find .name (d.scene.pathOf operand) = .ok (route, e)

section Sparing

variable {recursive force : Bool} {named : Route → Prop} {d d' d₁ d₂ : Desk} {disk : Disk}
  {path operand : String} {operands rest : List String} {message : String → Fault →
    String} {verdicts : List (Option Fault)}
  {r : Except Error Completion} {route : Route} {e : Entry}

namespace Desk

theorem Spares.refl (recursive : Bool) (named : Route → Prop) (d : Desk) :
    d.Spares recursive named d :=
  ⟨.refl _ _ _, fun _ => .refl _, rfl, rfl⟩

theorem Spares.trans (h₁ : d.Spares recursive named d₁) (h₂ : d₁.Spares recursive named d₂) :
    d.Spares recursive named d₂ where
  cleared := by
    have hcleared := h₂.cleared
    rw [h₁.err] at hcleared
    exact h₁.cleared.trans hcleared
  directories hrec := (h₁.directories hrec).trans (h₂.directories hrec)
  err := h₂.err.trans h₁.err
  pathOf := h₂.pathOf.trans h₁.pathOf

theorem Spares.mono {named' : Route → Prop} (h : d.Spares recursive named d')
    (hnamed : ∀ r, named r → named' r) :
    d.Spares recursive named' d' :=
  ⟨h.cleared.mono hnamed fun _ hr => hr, h.directories, h.err, h.pathOf⟩

/-- A report takes nothing away. -/
theorem spares_report (recursive : Bool) (named : Route → Prop) (d : Desk) (bs : Bytes) :
    d.Spares recursive named (runOn (Action.report bs) d).2 := by
  rcases d with ⟨scene, out, err⟩
  rw [Action.report, runOn_bind_of_ok (runOn_get _)]
  cases err with
  | stdout =>
      rcases hw : scene.host.stdout.write bs with ⟨o, fault | done⟩ <;> simp only [Sink.write, hw]
      · exact ⟨.refl _ _ _, fun _ => .refl _, rfl, rfl⟩
      · exact ⟨.refl _ _ _, fun _ => .refl _, rfl, rfl⟩
  | stderr =>
      rcases hw : scene.host.stderr.write bs with ⟨o, fault | done⟩ <;> simp only [Sink.write, hw]
      · exact ⟨.refl _ _ _, fun _ => .refl _, rfl, rfl⟩
      · exact ⟨.refl _ _ _, fun _ => .refl _, rfl, rfl⟩
  | buffer bytes => exact ⟨.refl _ _ _, fun _ => .refl _, rfl, rfl⟩
  | file handle =>
      cases hw : scene.host.disk.write handle bs with
      | error fault =>
          simp only [Sink.write, hw]
          exact ⟨.refl _ _ _, fun _ => .refl _, rfl, rfl⟩
      | ok written =>
          rcases written with ⟨disk, handle'⟩
          simp only [Sink.write, hw]
          -- Only a report that goes to a file changes the disk, and then only the content of that
          -- file.
          have hcleared := (Disk.cleared_write hw named).mono (fun _ hr => hr) fun _ hr =>
            congrArg some hr.symm
          exact ⟨hcleared, fun _ => Disk.keepsDirectories_write hw,
            congrArg some (Disk.write_cases hw).1, rfl⟩

/-- What is named later on was named at the start. -/
theorem Names.of_spares (h : d.Spares recursive named d') (hnames : d'.Names operands route) :
    d.Names operands route := by
  rcases hnames with ⟨operand, hmem, e', hfind⟩
  rw [h.pathOf] at hfind
  rcases Disk.exists_find_of_thinned h.cleared.thinned hfind with ⟨e, he, -⟩
  exact ⟨operand, hmem, e, he⟩

theorem Names.tail (h : d.Names rest route) : d.Names (operand :: rest) route := by
  rcases h with ⟨operand', hmem, hfind⟩
  exact ⟨operand', List.mem_cons_of_mem _ hmem, hfind⟩

end Desk

end Sparing

/-! ## One operand -/

section One

variable {recursive force : Bool} {d d' : Disk} {path : String} {fault : Fault}

/-- The entry that the path names is taken away, or there is none and that is no fault, or all below
the root is taken away and that is reported, or nothing is changed. -/
theorem removeOne_cases (recursive force : Bool) (d : Disk) (path : String) :
    (∃ route e, d.find .name path = .ok (route, e) ∧
    (e.isDirectory = true → recursive = true ∧ route ≠ []) ∧
      removeOne recursive force d path = (d.without route e, .ok ())) ∨
    (d.find .name path = .error .notFound ∧ force = true ∧
      removeOne recursive force d path = (d, .ok ())) ∨
    (∃ e, d.find .name path = .ok ([], e) ∧ e.isDirectory = true ∧ recursive = true ∧
      removeOne recursive force d path = (d.clear, .error .busy)) ∨
    ∃ fault, removeOne recursive force d path = (d, .error fault) := by
  rcases Disk.remove_cases d recursive path with ⟨route, e, hfind, hdir, hremove⟩ |
    ⟨e, hfind, hdir, hrec, hremove⟩ | ⟨fault, hremove, hfind⟩
  · exact .inl ⟨route, e, hfind, hdir, by rw [removeOne, hremove]⟩
  · exact .inr (.inr (.inl ⟨e, hfind, hdir, hrec, by rw [removeOne, hremove]; rfl⟩))
  · by_cases hfault : fault = .notFound
    · subst hfault
      cases force with
      | false => exact .inr (.inr (.inr ⟨.notFound, by rw [removeOne, hremove]; rfl⟩))
      | true => exact .inr (.inl ⟨hfind rfl, rfl, by rw [removeOne, hremove]; rfl⟩)
    · refine .inr (.inr (.inr ⟨fault, ?_⟩))
      rw [removeOne, hremove]
      split
      next heq => exact absurd (Except.error.inj (Prod.mk.inj heq).2) hfault
      next => rfl

/-- A removal that goes well took what was found, or was forced and found nothing. -/
theorem removeOne_eq_ok (h : removeOne recursive force d path = (d', .ok ())) :
    (∃ route e, d.find .name path = .ok (route, e) ∧
    (e.isDirectory = true → recursive = true ∧ route ≠ []) ∧
      d' = d.without route e) ∨
    (d.find .name path = .error .notFound ∧ force = true ∧ d' = d) := by
  rcases removeOne_cases recursive force d path with ⟨route, e, hfind, hdir, hone⟩ |
    ⟨hfind, hforce, hone⟩ | ⟨e, -, -, -, hone⟩ | ⟨fault, hone⟩ <;> rw [hone] at h <;> cases h
  · exact .inl ⟨route, e, hfind, hdir, rfl⟩
  · exact .inr ⟨hfind, hforce, rfl⟩

/-- An operand that is reported left the disk alone, unless it is the root. -/
theorem removeOne_eq_error (h : removeOne recursive force d path = (d', .error fault)) :
    d' = d ∨ ∃ e, d.find .name path = .ok ([], e) ∧ e.isDirectory = true ∧ recursive = true ∧
      d' = d.clear ∧
      fault = .busy := by
  rcases removeOne_cases recursive force d path with ⟨route, e, -, -, hone⟩ | ⟨-, -, hone⟩ |
    ⟨e, hfind, hdir, hrec, hone⟩ | ⟨fault, hone⟩ <;> rw [hone] at h <;> cases h
  · exact .inr ⟨e, hfind, hdir, hrec, rfl, rfl⟩
  · exact .inl rfl

end One

/-! ## All operands -/

section All

variable {recursive force : Bool} {message : String → Fault → String} {d d' : Desk}
  {operand : String} {operands : List String} {verdicts : List (Option Fault)}
    {r : Except Error Completion} {disk : Disk}

/-- An operand that is treated well names nothing any more. -/
theorem removeOne_spares (h : removeOne recursive force d.disk (d.scene.pathOf operand) =
    (disk, .ok ())) :
    d.Spares recursive (d.Names [operand]) (d.withDisk disk) ∧
      disk.find .name (d.scene.pathOf operand) = .error .notFound := by
  rcases removeOne_eq_ok h with ⟨route, e, hfind, hdir, rfl⟩ | ⟨hfind, -, rfl⟩
  · have hcleared := d.disk.cleared_without route e fun route => d.err.route? = some route
    refine ⟨⟨hcleared.mono ?_ fun _ hr => hr, ?_, rfl, rfl⟩, ?_⟩
    · rintro r rfl
      exact ⟨operand, List.mem_singleton_self _, e, hfind⟩
    · intro hrec
      refine Disk.keepsDirectories_without (Disk.get?_of_find hfind) ?_
      rw [Bool.eq_false_iff]
      intro htrue
      rw [(hdir htrue).1] at hrec
      cases hrec
    · exact Disk.find_of_missing hcleared.thinned hfind (Disk.get?_without_self _ _ _)
  · exact ⟨.refl _ _ _, hfind⟩

/-- Of an operand that is reported, too, nothing goes but what it names and what is below that. -/
theorem removeOne_spares_of_error {fault : Fault}
    (h : removeOne recursive force d.disk (d.scene.pathOf operand) = (disk, .error fault)) :
    d.Spares recursive (d.Names [operand]) (d.withDisk disk) := by
  rcases removeOne_eq_error h with rfl | ⟨e, hfind, -, hrec, rfl, -⟩
  · exact .refl _ _ _
  · have hcleared := d.disk.cleared_clear fun route => d.err.route? = some route
    refine ⟨hcleared.mono ?_ fun _ hr => hr, fun hkeep => ?_, rfl, rfl⟩
    · rintro r rfl
      exact ⟨operand, List.mem_singleton_self _, e, hfind⟩
    · rw [hrec] at hkeep
      cases hkeep

theorem Desk.Names.head {d : Desk} {route : Route} (h : d.Names [operand] route) :
    d.Names (operand :: operands) route := by
  rcases h with ⟨named, hmem, hfind⟩
  exact ⟨named, List.mem_cons.2 (.inl (List.mem_singleton.1 hmem)), hfind⟩

/-- Operands in turn spare what none of them names. -/
theorem Treats.spares (h : Treats (removeOne recursive force) message d operands verdicts r d') :
    d.Spares recursive (d.Names operands) d' := by
  induction h with
  | none => exact .refl _ _ _
  | @done d d' operand rest _ _ disk acted _ ih =>
      have hone := (removeOne_spares acted).1
      exact (hone.mono fun _ hr => hr.head).trans (ih.mono fun r hr => (hr.of_spares hone).tail)
  | @reported d d₁ d' operand rest _ _ disk fault acted said _ ih =>
      have hone := removeOne_spares_of_error acted
      have hsaid := hone.trans ((d.withDisk disk).spares_report recursive (d.Names [operand])
        (Utf8.encode (message operand fault ++ "\n")))
      rw [show runOn (Action.report _) (d.withDisk disk) = (.ok (), d₁) from said] at hsaid
      exact (hsaid.mono fun _ hr => hr.head).trans (ih.mono fun r hr => (hr.of_spares hsaid).tail)
  | @unsaid d d' operand rest disk fault e acted said =>
      have hone := removeOne_spares_of_error acted
      have hsaid := hone.trans ((d.withDisk disk).spares_report recursive (d.Names [operand])
        (Utf8.encode (message operand fault ++ "\n")))
      rw [show runOn (Action.report _) (d.withDisk disk) = (.error e, d') from said] at hsaid
      exact hsaid.mono fun _ hr => hr.head

/-- What is treated well is gone at the end, and without `force` it was there at the start. -/
theorem Treats.gone (h : Treats (removeOne recursive force) message d operands verdicts r d')
    (hmem : (operand, Option.none) ∈ operands.zip verdicts) :
    d'.disk.find .name (d.scene.pathOf operand) = .error .notFound ∧
      (force = false → ∃ found, d.disk.find .name (d.scene.pathOf operand) = .ok found) := by
  induction h with
  | none => cases hmem
  | @done d d' first rest _ _ disk acted others ih =>
      -- What this operand took stays gone, since those behind it only take more.
      rcases removeOne_spares acted with ⟨hone, hgone⟩
      rw [List.zip_cons_cons, List.mem_cons] at hmem
      rcases hmem with heq | hrest
      · cases heq
        refine ⟨Disk.find_thinned others.spares.cleared.thinned hgone, ?_⟩
        rintro rfl
        rcases removeOne_eq_ok acted with ⟨route, e, hfind, -⟩ | ⟨-, hforce, -⟩
        · exact ⟨(route, e), hfind⟩
        · cases hforce
      · refine (ih hrest).imp_right fun hthere hforce => ?_
        rcases hthere hforce with ⟨⟨route, e'⟩, hfind⟩
        rcases Disk.exists_find_of_thinned hone.cleared.thinned hfind with ⟨e, he, -⟩
        exact ⟨(route, e), he⟩
  | @reported d d₁ d' first rest _ _ disk fault acted said others ih =>
      -- The report may be written to a file of the disk, and that takes nothing either.
      have hsaid := (removeOne_spares_of_error acted).trans
        ((d.withDisk disk).spares_report recursive (d.Names [first])
          (Utf8.encode (message first fault ++ "\n")))
      rw [show runOn (Action.report _) (d.withDisk disk) = (.ok (), d₁) from said] at hsaid
      rw [List.zip_cons_cons, List.mem_cons] at hmem
      rcases hmem with heq | hrest
      · cases heq
      · rw [hsaid.pathOf] at ih
        refine (ih hrest).imp_right fun hthere hforce => ?_
        rcases hthere hforce with ⟨⟨route, e'⟩, hfind⟩
        rcases Disk.exists_find_of_thinned hsaid.cleared.thinned hfind with ⟨e, he, -⟩
        exact ⟨(route, e), he⟩
  | unsaid => simp at hmem

end All

/-! ## The command -/

/-- The words of `rm`, sorted out. -/
def rmOptions (args : List String) : Options :=
  Options.read (recursiveFlags ++ forceFlags).contains args

def Options.isRecursive (o : Options) : Bool :=
  o.flags.any recursiveFlags.contains

/-- Whether it is no failure if there is nothing to remove. -/
def Options.isForced (o : Options) : Bool :=
  o.flags.any forceFlags.contains

/-- What `rm` reports of an operand. -/
def removalReport (target : String) (fault : Fault) : String :=
  s!"rm: cannot remove '{target}': {fault.describe}"

section Command

variable {args : List String} {stdin : Option Bytes}

/-- With its words in order, `rm` removes what each operand names. -/
theorem rm_eq_forOperands (hunknown : (rmOptions args).unknown = [])
    (hoperands : (rmOptions args).operands ≠ []) :
    Builtin.rm args stdin =
      forOperands (removeOne (rmOptions args).isRecursive (rmOptions args).isForced) removalReport
        (rmOptions args).operands := by
  have hsome : (rmOptions args).operands.isEmpty = false := by simpa using hoperands
  rw [Builtin.rm, withOptions]
  change (if !(rmOptions args).unknown.isEmpty then _ else if (rmOptions args).operands.isEmpty
    then _ else _) = _
  rw [hunknown, hsome]
  rfl

/-- Otherwise it says so, and that is all. -/
theorem rm_refuses (stdin : Option Bytes) (h : (rmOptions args).unknown ≠ [] ∨
    (rmOptions args).operands = []) :
    ∃ text c, c ≠ Completion.success ∧ Builtin.rm args stdin = do
      Action.complain text
      return c := by
  rw [Builtin.rm, withOptions]
  change ∃ text c, _ ∧ (if !(rmOptions args).unknown.isEmpty then _ else
    if (rmOptions args).operands.isEmpty then _ else _) = _
  cases hunknown : (rmOptions args).unknown with
  | cons flag flags => exact ⟨_, .usage, by decide, rfl⟩
  | nil =>
      rcases h with hne | hnone
      · exact (hne hunknown).elim
      · rw [hnone]
        exact ⟨_, .failure, by decide, rfl⟩

end Command

/-- What comes of the operands of `rm`: the verdicts on them, the result and the desk after it. -/
structure RemovesInTurn (o : Options) (d : Desk) (verdicts : List (Option Fault))
    (r : Except Error Completion) (d' : Desk) : Prop where
  course : Treats (removeOne o.isRecursive o.isForced) removalReport d o.operands verdicts r d'
  /-- It succeeds if and only if no operand is reported, and fails otherwise. -/
  success_iff : r = .ok .success ↔ ∀ verdict ∈ verdicts, verdict = none
  completion : ∀ c, r = .ok c → (c = .success ∨ c = .failure) ∧ verdicts.length = o.operands.length
  /-- Memory takes all reports. -/
  told : ∀ bytes, d.err = .buffer bytes →
    (∃ c, r = .ok c) ∧ d'.err = .buffer (bytes ++ reports removalReport o.operands verdicts)
  /-- What is not reported is gone, and was there unless it need not be. -/
  gone : ∀ operand, (operand, none) ∈ o.operands.zip verdicts →
    d'.disk.find .name (d.scene.pathOf operand) = .error .notFound ∧
    (o.isForced = false → ∃ found, d.disk.find .name (d.scene.pathOf operand) = .ok found)

/-- Treating operands one by one is to remove them in turn. -/
theorem Treats.removesInTurn {o : Options} {d d' : Desk} {verdicts : List (Option Fault)}
    {r : Except Error Completion}
    (h : Treats (removeOne o.isRecursive o.isForced) removalReport d o.operands verdicts r d') :
    RemovesInTurn o d verdicts r d' where
  course := h
  success_iff := h.success_iff
  completion _ hr := ⟨h.completion hr, h.length_eq hr⟩
  told _ herr := (h.told herr).symm
  gone _ hmem := h.gone hmem

/-- `rm` takes away nothing but what its operands name and what is below that, wherever links lead,
and without the recursive flag no directory. It treats its operands in turn, each of which is gone
in the end unless it was reported, and succeeds if and only if none was. If its words are not in
order, it takes away nothing and does not succeed. -/
theorem rm_spares_what_it_is_not_given (args : List String) (stdin : Option Bytes) (d : Desk) :
    ∃ r d', runOn (Builtin.rm args stdin) d = (r, d') ∧
      d.Spares (rmOptions args).isRecursive (d.Names (rmOptions args).operands) d' ∧
      ((rmOptions args).unknown = [] → (rmOptions args).operands ≠ [] →
        ∃ verdicts, RemovesInTurn (rmOptions args) d verdicts r d') ∧
      ((rmOptions args).unknown ≠ [] ∨ (rmOptions args).operands = [] →
        r ≠ .ok .success ∧ d.Spares false (fun _ => False) d') := by
  rcases hrun : runOn (Builtin.rm args stdin) d with ⟨r, d'⟩
  refine ⟨r, d', rfl, ?_⟩
  by_cases hrefused : (rmOptions args).unknown ≠ [] ∨ (rmOptions args).operands = []
  · -- A refusal only writes its report.
    rcases rm_refuses stdin hrefused with ⟨text, c, hc, hrm⟩
    have hspares := fun recursive =>
      d.spares_report recursive (fun _ => False) (Utf8.encode (text ++ "\n"))
    rw [hrm, Action.complain, runOn_bind] at hrun
    have hends : r ≠ .ok .success ∧
      d' = (runOn (Action.report (Utf8.encode (text ++ "\n"))) d).2 := by
      rcases hsaid : runOn (Action.report (Utf8.encode (text ++ "\n"))) d with ⟨e | done, d₁⟩ <;>
        rw [hsaid] at hrun <;>
        cases hrun
      · exact ⟨nofun, rfl⟩
      · exact ⟨fun h => hc (Except.ok.inj h), rfl⟩
    rcases hends with ⟨hr, rfl⟩
    refine ⟨(hspares _).mono fun _ hnone => hnone.elim, fun hunknown hoperands => ?_, fun _ =>
      ⟨hr, hspares _⟩⟩
    exact (hrefused.elim (fun h => h hunknown) hoperands).elim
  · have hunknown : (rmOptions args).unknown = [] := not_not.1 (not_or.1 hrefused).1
    have hoperands : (rmOptions args).operands ≠ [] := (not_or.1 hrefused).2
    rw [rm_eq_forOperands hunknown hoperands] at hrun
    -- Otherwise the operands are treated one by one, and the course says what came of each.
    rcases exists_treats (removeOne (rmOptions args).isRecursive (rmOptions args).isForced)
      removalReport (rmOptions args).operands d with ⟨verdicts, hcourse⟩
    rw [hrun] at hcourse
    exact ⟨hcourse.spares, fun _ _ => ⟨verdicts, hcourse.removesInTurn⟩, fun h => (hrefused h).elim⟩

/-- A desk on whose disk a directory holds a link to a file outside. -/
def linkedDesk : Desk :=
  let root := ({} : Disk).set [] (Disk.plainDirectory 0)
  let tree := (root.set ["d"] (Disk.plainDirectory 0)).set ["d", "l"] ⟨.link "/f", 0o777, 0⟩
  ⟨{ host := { disk := tree.set ["f"] ⟨.file (.ofBytes [120]), Disk.fileMode, 0⟩ } }, .memory,
    .memory⟩

/-- In that directory the operand leads to the directory behind the link. -/
theorem find_linked :
    linkedDesk.disk.find .name (linkedDesk.scene.pathOf "d") = .ok (["d"], Disk.plainDirectory 0) :=
  rfl

/-- The directory is removed together with the link, and the file that the link leads to stays. -/
theorem removed_link_spares_file :
    ∃ d', runOn (Builtin.rm ["-r", "d"] none) linkedDesk = (.ok .success, d') ∧
      d'.disk.find .name "/d" = .error .notFound ∧
      d'.disk.body? ["f"] = some (.file (.ofBytes [120]), Disk.fileMode) := by
  have hoptions : rmOptions ["-r", "d"] = { flags := ["-r"], operands := ["d"] } := by decide
  have hunknown : (rmOptions ["-r", "d"]).unknown = [] := by rw [hoptions]
  have hoperands : (rmOptions ["-r", "d"]).operands ≠ [] := by simp [hoptions]
  -- The operand is the link itself, and what it leads to is not named.
  have hone : removeOne true false linkedDesk.disk (linkedDesk.scene.pathOf "d") =
      (linkedDesk.disk.without ["d"] (Disk.plainDirectory 0), .ok ()) := by
    rw [removeOne, Disk.remove_of_find find_linked fun _ => ⟨rfl, List.cons_ne_nil _ _⟩]
  rcases rm_spares_what_it_is_not_given ["-r", "d"] none linkedDesk
    with ⟨r, d', hrun, hspares, hturn, -⟩
  rcases hturn hunknown hoperands with ⟨verdicts, hremoves⟩
  have hsuccess : r = .ok .success := by
    rw [rm_eq_forOperands hunknown hoperands, hoptions] at hrun
    have hends := (runOn_forOperands_of_ok hone).symm.trans hrun
    cases hends
    rfl
  have hlength := (hremoves.completion _ hsuccess).2
  have hverdicts : verdicts = [none] := by
    rw [hoptions] at hlength
    rcases List.length_eq_one_iff.1 hlength with ⟨verdict, rfl⟩
    rw [hremoves.success_iff.1 hsuccess verdict (List.mem_singleton_self _)]
  subst hsuccess
  refine ⟨d', hrun, (hremoves.gone "d" ?_).1, ?_⟩
  · rw [hoptions, hverdicts]
    exact List.mem_singleton_self _
  · refine hspares.cleared.bodies ["f"] nofun ?_
    rintro named ⟨operand, hmem, e, hfind⟩ hbelow
    rw [hoptions, List.mem_singleton] at hmem
    subst hmem
    cases find_linked.symm.trans hfind
    exact absurd hbelow (by decide)

/-- An unknown flag is the failure, and the operand, which nothing is reported of, is left alone. -/
theorem unknown_flag_keeps_operand :
    (rmOptions ["-q", "f"]).operands = ["f"] ∧
      runOn (Builtin.rm ["-q", "f"] none) linkedDesk =
        (.ok .usage, { linkedDesk with
          err := .buffer (Utf8.encode "rm: invalid option(s): -q\n") }) ∧
      linkedDesk.disk.find .name (linkedDesk.scene.pathOf "f") =
        .ok (["f"], ⟨.file (.ofBytes [120]), Disk.fileMode, 0⟩) :=
  ⟨by decide, rfl, rfl⟩

end LineShell
