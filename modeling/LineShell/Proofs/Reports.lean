import LineShell.Proofs.Execution
import LineShell.Proofs.Flags

/-!
# Reports — what a listing is put together from

Reports are put behind one another. `ls` reads its flags, makes the report on its targets, and
prints it: the text first and then the complaints.

* `Report.concat` — reports behind one another;
* `items_of_names`, `tree_zero_of_items`, `tree_succ_of_items` — the items of a directory, and the
  report on it;
* `reportOn`, `target_of_entry` — the report on a target;
* `announce` — printing a report;
* `runOn_lsThrough`, `lsThrough_refuses` — `ls` without and with unknown flags.
-/

namespace LineShell
namespace Listing

/-! ## Reports behind one another -/

namespace Report

variable {a b c r : Report} {rs rs' : List Report}

@[simp] theorem append_empty (r : Report) : r.append {} = r := by
  simp [append]

@[simp] theorem empty_append (r : Report) : ({} : Report).append r = r := by
  simp [append]

/-- Reports are put together in any grouping. -/
theorem append_assoc (a b c : Report) : (a.append b).append c = a.append (b.append c) := by
  simp [append, String.append_assoc, List.append_assoc]

def concat (rs : List Report) : Report :=
  rs.foldr append {}

@[simp] theorem concat_nil : concat [] = {} := rfl

@[simp] theorem concat_cons (r : Report) (rs : List Report) :
    concat (r :: rs) = r.append (concat rs) := rfl

/-- Reports added one by one are added as a whole. -/
theorem foldl_append (first : Report) (rs : List Report) :
    rs.foldl append first = first.append (concat rs) := by
  induction rs generalizing first with
  | nil => exact (append_empty first).symm
  | cons r rest ih => rw [List.foldl_cons, ih, concat_cons, append_assoc]

/-- Reports put together in two groups are put together. -/
theorem concat_append (rs rs' : List Report) :
    concat (rs ++ rs') = (concat rs).append (concat rs') := by
  induction rs with
  | nil => exact (empty_append _).symm
  | cons r rest ih => rw [List.cons_append, concat_cons, ih, concat_cons, append_assoc]

/-- Reports of reports are put together in either order. -/
theorem concat_flatMap {α : Type} (l : List α) (g : α → List Report) :
    concat (l.flatMap g) = concat (l.map fun a => concat (g a)) := by
  induction l with
  | nil => rfl
  | cons a rest ih => rw [List.flatMap_cons, concat_append, ih, List.map_cons, concat_cons]

/-- The complaints of reports put together are those of each in turn. -/
theorem complaints_concat (rs : List Report) :
    (concat rs).complaints = rs.flatMap Report.complaints := by
  induction rs with
  | nil => rfl
  | cons r rest ih => rw [concat_cons, append, ih, List.flatMap_cons]

end Report

/-! ## Directories -/

section Directories

variable {f : Frame} {path : String} {names : List String} {found : List Item} {fault : Fault}

/-- The items are the names that are shown, sorted. -/
theorem items_of_names (h : f.view.names path = .ok names) :
    items f path = .ok (sorted f.settings (names.map (itemAt f path))) := by
  rw [items, h]
  rfl

theorem items_of_fault (h : f.view.names path = .error fault) : items f path = .error fault := by
  rw [items, h]
  rfl

def title (titled : Bool) (header : String) : String :=
  if titled then header ++ ":\n" else ""

def goesOn (f : Frame) (found : List Item) : List Item :=
  if f.settings.recursive then found.filter (·.isDirectory) else []

/-- The report on a directory among others below the same one. -/
def subReport (f : Frame) (levels : Nat) (path header : String) (item : Item) : Report :=
  Report.append ⟨"\n", []⟩ (tree f true levels (Path.join path item.name)
    (childHeader header item.name))

/-- A directory that cannot be opened has its title and one complaint. -/
theorem tree_of_fault (h : items f path = .error fault) (titled : Bool) (levels : Nat)
    (header : String) :
    tree f titled levels path header =
      ⟨title titled header, [s!"ls: cannot open directory '{header}': {fault.describe}"]⟩ := by
  rw [tree.eq_def]
  dsimp only
  rw [h]
  rfl

/-- Without levels below, a directory has its title and its lines. -/
theorem tree_zero_of_items (h : items f path = .ok found) (titled : Bool) (header : String) :
    tree f titled 0 path header = ⟨title titled header ++ lines f.settings f.colors found, []⟩ := by
  rw [tree.eq_def]
  dsimp only
  rw [h]
  rfl

/-- A directory, and then one after the other those below it. -/
theorem tree_succ_of_items (h : items f path = .ok found) (titled : Bool) (levels : Nat)
    (header : String) :
    tree f titled (levels + 1) path header =
      Report.append ⟨title titled header ++ lines f.settings f.colors found, []⟩
        (Report.concat ((goesOn f found).map (subReport f levels path header))) := by
  rw [← Report.foldl_append, List.foldl_map, tree.eq_def]
  dsimp only
  rw [h]
  have hsub : ∀ item, subReport f levels path header item =
      ⟨"\n" ++ (tree f true levels (Path.join path item.name) (childHeader header item.name)).out,
        (tree f true levels (Path.join path item.name)
        (childHeader header item.name)).complaints⟩ := fun _ => rfl
  simp only [hsub]
  rfl

end Directories

/-! ## Targets -/

/-- The report on a target that stands for an entry. -/
def reportOn (f : Frame) (titled : Bool) (raw path : String) (e : Entry) : Report :=
  if e.isDirectory then tree f titled f.levels path raw
  else
    let item : Item := { name := (Path.lastName path).getD raw, entry := some e }
    ⟨title titled raw ++ line f.settings f.colors 0 item, []⟩

section Targets

variable {f : Frame} {path : String} {e : Entry} {fault : Fault}

/-- A target that exists is reported on. -/
theorem target_of_entry (h : f.view.look path = .ok e) (titled : Bool) (raw : String) :
    target f titled raw path = .ok (reportOn f titled raw path e) := by
  rw [target, h, reportOn]
  change (if e.isDirectory then _ else _) = _
  split <;> rfl

theorem target_of_fault (h : f.view.look path = .error fault) (titled : Bool) (raw : String) :
    target f titled raw path = .error fault := by
  rw [target, h]
  rfl

end Targets

/-! ## The command -/

/-- Prints a report: the text, and then the complaints, which make it a failure. -/
def announce (r : Report) : Action Completion := do
  Action.print (Utf8.encode r.out)
  if r.complaints.isEmpty then return .success
  else
    Action.report (Utf8.encode (String.join (r.complaints.map (· ++ "\n"))))
    return .failure

/-- The targets that the words of `ls` name; without any it is the working directory. -/
def targetsOf (args : List String) : List String :=
  if (operandsIn args).isEmpty then ["."] else operandsIn args

/-- How `ls` makes its listing, given what it sees of a disk. -/
def frameOf (view : Disk → View) (args : List String) (d : Desk) : Frame where
  settings := settingsOf (flagsIn args)
  view := view d.scene.host.disk
  colors := d.out.isTerminal d.scene.host && d.scene.host.colors
  levels := d.scene.host.disk.depth

/-- The report that `ls` makes. -/
def reportOf (view : Disk → View) (args : List String) (d : Desk) : Report :=
  report (frameOf view args d) (1 < (targetsOf args).length)
    ((targetsOf args).map fun raw => (raw, d.scene.pathOf raw))

section Command

variable {view : Disk → View} {args : List String} {stdin : Option Bytes} {d : Desk}

/-- With known flags, `ls` makes its report and prints it. -/
theorem runOn_lsThrough (h : ∀ flag ∈ flagsIn args, knows flag = true) :
    runOn (Builtin.lsThrough view args stdin) d = runOn (announce (reportOf view args d)) d := by
  have hknown : (flagsIn args).filter (!knows ·) = [] := by
    rw [List.filter_eq_nil_iff]
    intro flag hflag
    simp [h flag hflag]
  rw [Builtin.lsThrough, Request.read_eq, hknown]
  change runOn (get >>= _) d = _
  rw [runOn_bind_of_ok (runOn_get d)]
  rfl

/-- An unknown flag is reported, and that is all. -/
theorem lsThrough_refuses (view : Disk → View) (stdin : Option Bytes)
    (h : ∃ flag ∈ flagsIn args, knows flag = false) :
    Builtin.lsThrough view args stdin =
      Action.refuseOptions "ls" ((flagsIn args).filter (!knows ·)) := by
  have hsome : ((flagsIn args).filter (!knows ·)).isEmpty = false := by simpa using h
  rw [Builtin.lsThrough, Request.read_eq]
  change (if !((flagsIn args).filter (!knows ·)).isEmpty then _ else _) = _
  rw [hsome]
  rfl

end Command

end Listing
end LineShell
