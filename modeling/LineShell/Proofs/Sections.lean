import Mathlib.Logic.Relation
import LineShell.Proofs.Sorting

/-!
# Sections — the directories of a recursive listing

A recursive listing has a section for a directory and one for each directory below that can be come
to without a link. They stand in the order in which a walk through the tree comes to them, and each
has the names on its way in its header. However the links on the disk lead, the walk has an end, for
no way is longer than the longest route of the disk.

* `sectionAt`, `trails`, `tree_eq_sections` — a listing, section by section;
* `Leads`, `mem_trails_iff` — the ways to the directories that are listed;
* `Precedes`, `pairwise_trails` — their order;
* `rounds_end` — the same listing, made with a stack of directories that are still to be listed;
* `View.Shows`, `Leads.enters` — what is listed stands on the disk;
* `headerAlong_concat` — headers;
* `recursive_listing_visits_each_directory_once` — all of it for `ls -R`.
-/

namespace LineShell
namespace Listing

/-! ## Sections -/

/-- The directories below a directory that a listing goes on with. -/
def belowAt (f : Frame) (path : String) : List Item :=
  match items f path with
  | .ok found => goesOn f found
  | .error _ => []

/-- The lines on a directory, if it can be read. -/
def linesAt (f : Frame) (path : String) : String :=
  match items f path with
  | .ok found => lines f.settings f.colors found
  | .error _ => ""

/-- The complaint about a directory that cannot be read. -/
def complaintAt (f : Frame) (path header : String) : Option String :=
  match f.view.names path with
  | .ok _ => none
  | .error fault => some s!"ls: cannot open directory '{header}': {fault.describe}"

def sectionAt (f : Frame) (titled : Bool) (path header : String) : Report :=
  ⟨title titled header ++ linesAt f path, (complaintAt f path header).toList⟩

def descend (path : String) (trail : List String) : String :=
  trail.foldl Path.join path

/-- The header at the end of a way. -/
def headerAlong (header : String) (trail : List String) : String :=
  trail.foldl childHeader header

/-- The ways to the directories that are listed, from `path` and so many levels down. -/
def trails (f : Frame) : Nat → String → List (List String)
  | 0, _ => [[]]
  | levels + 1, path =>
      [] :: (belowAt f path).flatMap fun item =>
        (trails f levels (Path.join path item.name)).map (item.name :: ·)

/-- The section at the end of a way. All but the first one have a header, and an empty line before
it. -/
def sectionOf (f : Frame) (titled : Bool) (path header : String) : List String → Report
  | [] => sectionAt f titled path header
  | name :: rest =>
      Report.append ⟨"\n", []⟩
        (sectionAt f true (descend path (name :: rest)) (headerAlong header (name :: rest)))

section Sections

variable {f : Frame} {path header : String} {titled : Bool} {levels : Nat}

/-- Without levels below, a tree is one section. -/
theorem tree_zero (f : Frame) (titled : Bool) (path header : String) :
    tree f titled 0 path header = sectionAt f titled path header := by
  rw [sectionAt, linesAt, complaintAt]
  cases hnames : f.view.names path with
  | ok names => rw [tree_zero_of_items (items_of_names hnames), items_of_names hnames]; rfl
  | error fault =>
      rw [tree_of_fault (items_of_fault hnames), items_of_fault hnames, String.append_empty]; rfl

/-- A directory, and then one after the other those below it. -/
theorem tree_succ (f : Frame) (titled : Bool) (levels : Nat) (path header : String) :
    tree f titled (levels + 1) path header =
      (sectionAt f titled path header).append
        (Report.concat ((belowAt f path).map (subReport f levels path header))) := by
  rw [sectionAt, linesAt, complaintAt, belowAt]
  cases hnames : f.view.names path with
  | ok names => rw [tree_succ_of_items (items_of_names hnames), items_of_names hnames]; rfl
  | error fault =>
      rw [tree_of_fault (items_of_fault hnames), items_of_fault hnames, String.append_empty]
      simp

/-- The first trail is the directory itself, and no other one is. -/
theorem trails_eq_cons (f : Frame) (levels : Nat) (path : String) :
    ∃ deeper, trails f levels path = [] :: deeper ∧ [] ∉ deeper := by
  cases levels with
  | zero => exact ⟨[], rfl, List.not_mem_nil⟩
  | succ levels => exact ⟨_, rfl, by simp⟩

/-- The sections below a directory, as seen from the one above it. -/
theorem map_sectionOf_cons (f : Frame) (titled : Bool) (levels : Nat) (path header name : String) :
    Report.concat ((trails f levels (Path.join path name)).map fun t =>
      sectionOf f titled path header (name :: t)) =
      Report.append ⟨"\n", []⟩ (Report.concat
        ((trails f levels (Path.join path name)).map
          (sectionOf f true (Path.join path name) (childHeader header name)))) := by
  rcases trails_eq_cons f levels (Path.join path name) with ⟨deeper, htrails, hdeeper⟩
  have hsame : deeper.map (fun t => sectionOf f titled path header (name :: t)) =
      deeper.map (sectionOf f true (Path.join path name) (childHeader header name)) := by
    refine List.map_congr_left fun t ht => ?_
    -- Only the empty way is special, for its section has no empty line before it.
    cases t with
    | nil => exact absurd ht hdeeper
    | cons next rest => rfl
  rw [htrails, List.map_cons, List.map_cons, Report.concat_cons, Report.concat_cons, hsame,
    ← Report.append_assoc]
  rfl

/-- A listing is its sections, one after the other. -/
theorem tree_eq_sections (f : Frame) (titled : Bool) (levels : Nat) (path header : String) :
    tree f titled levels path header =
      Report.concat ((trails f levels path).map (sectionOf f titled path header)) := by
  induction levels generalizing titled path header with
  | zero =>
      rw [tree_zero, trails, List.map_singleton, Report.concat_cons, Report.concat_nil,
        Report.append_empty]; rfl
  | succ levels ih =>
      rw [tree_succ, trails, List.map_cons, Report.concat_cons, List.map_flatMap,
        Report.concat_flatMap]
      congr 2
      refine List.map_congr_left fun item _ => ?_
      rw [List.map_map, subReport, ih]
      exact (map_sectionOf_cons f titled levels path header item.name).symm

end Sections

/-! ## The ways to the directories -/

/-- A name in the directory of a path that is shown and stands for a directory, not for a link to
one. -/
def IsBelow (f : Frame) (path name : String) : Prop :=
  ∃ names, f.view.names path = .ok names ∧ name ∈ names ∧ ShowsName f.settings name ∧
    ∃ e, f.view.look (Path.join path name) = .ok e ∧ e.isDirectory = true

/-- Names that lead from one directory to another one below it, through directories that are
shown. -/
def Leads (f : Frame) : String → List String → Prop
  | _, [] => True
  | path, name :: rest => IsBelow f path name ∧ Leads f (Path.join path name) rest

/-- One way before another: a directory before those below it, and of two side by side all of the
first, in the order of the listing, before the second. -/
inductive Precedes (f : Frame) : String → List String → List String → Prop where
  | above (path name : String) (rest : List String) : Precedes f path [] (name :: rest)
  | beside {path name name' : String} (h : Before f.settings.key (itemAt f path name)
    (itemAt f path name'))
      (rest rest' : List String) : Precedes f path (name :: rest) (name' :: rest')
  | within {path name : String} {rest rest' : List String}
    (h : Precedes f (Path.join path name) rest rest') :
      Precedes f path (name :: rest) (name :: rest')

section Ways

variable {f : Frame} {path name : String} {t t' : List String} {levels : Nat}

/-- No trail precedes itself. -/
theorem Precedes.ne (h : Precedes f path t t') : t ≠ t' := by
  induction h with
  | above => simp
  | beside hbefore =>
      rintro heq
      cases heq
      exact before_asymm hbefore hbefore
  | within _ ih =>
      rintro heq
      cases heq
      exact ih rfl

/-- An item is a directory if its name leads to one. -/
theorem isDirectory_itemAt : (itemAt f path name).isDirectory = true ↔
    ∃ e, f.view.look (Path.join path name) = .ok e ∧ e.isDirectory = true := by
  rw [itemAt, Item.isDirectory]
  cases f.view.look (Path.join path name) <;> simp [Except.toOption]

/-- Of an item that a listing goes on with, a directory was seen. -/
theorem exists_look_of_mem_belowAt {item : Item} (h : item ∈ belowAt f path) :
    ∃ e, f.view.look (Path.join path item.name) = .ok e ∧ e.isDirectory = true := by
  rw [belowAt] at h
  cases hnames : f.view.names path with
  | error fault =>
      rw [items_of_fault hnames] at h
      cases h
  | ok names =>
      rw [items_of_names hnames] at h
      dsimp only [goesOn] at h
      split at h
      · rcases List.mem_filter.1 h with ⟨hsorted, hdir⟩
        have hfound := List.mem_of_mem_filter ((sorted_perm _ _).mem_iff.1 hsorted)
        rcases List.mem_map.1 hfound with ⟨name, -, rfl⟩
        exact isDirectory_itemAt.1 hdir
      · cases h

/-- The directories to go down to are those that are shown and no links, each once. -/
theorem belowAt_spec (hdistinct : f.view.Distinct) (hrecursive : f.settings.recursive = true)
    (path : String) :
    (∀ item ∈ belowAt f path, item = itemAt f path item.name) ∧
      (∀ name, (∃ item ∈ belowAt f path, item.name = name) ↔ IsBelow f path name) ∧
      (belowAt f path).Pairwise (Before f.settings.key) := by
  cases hnames : f.view.names path with
  | error fault =>
      have hnone : belowAt f path = [] := by rw [belowAt, items_of_fault hnames]
      have hno : ∀ name, ¬ IsBelow f path name := by
        rintro name ⟨names, hok, -⟩
        rw [hnames] at hok
        cases hok
      simp [hnone, hno]
  | ok names =>
      -- What is below are the directories among the items, so it is as sorted as they are.
      rcases items_spec (hdistinct path names hnames) hnames with ⟨found, hitems, hmem, -, hsorted⟩
      have hbelow : belowAt f path = found.filter (·.isDirectory) := by
        rw [belowAt, hitems]
        exact if_pos hrecursive
      have hat : ∀ item ∈ found, item = itemAt f path item.name := by
        intro item hitem
        rcases (hmem item).1 hitem with ⟨name, -, -, rfl⟩
        rfl
      rw [hbelow]
      refine ⟨fun item hitem => hat item (List.mem_of_mem_filter hitem), fun name => ?_,
        hsorted.filter _⟩
      constructor
      · rintro ⟨item, hitem, rfl⟩
        rcases List.mem_filter.1 hitem with ⟨hfound, hdir⟩
        rcases (hmem item).1 hfound with ⟨name, hname, hshown, rfl⟩
        exact ⟨names, hnames, hname, hshown, isDirectory_itemAt.1 hdir⟩
      · rintro ⟨names', hok, hname, hshown, hdir⟩
        rw [hnames] at hok
        cases hok
        exact ⟨itemAt f path name, List.mem_filter.2 ⟨(hmem _).2 ⟨name, hname, hshown, rfl⟩,
          isDirectory_itemAt.2 hdir⟩, rfl⟩

/-- The directories that are listed are those that names lead to, so many levels down. -/
theorem mem_trails_iff (hdistinct : f.view.Distinct) (hrecursive : f.settings.recursive = true) :
    t ∈ trails f levels path ↔ t.length ≤ levels ∧ Leads f path t := by
  induction levels generalizing path t with
  | zero =>
      rw [trails, List.mem_singleton, Nat.le_zero, List.length_eq_zero_iff]
      constructor
      · rintro rfl
        exact ⟨rfl, trivial⟩
      · exact And.left
  | succ levels ih =>
      -- What is put on the list below a directory is just what leads further.
      rcases belowAt_spec hdistinct hrecursive path with ⟨-, hbelow, -⟩
      rw [trails]
      cases t with
      | nil => simp [Leads]
      | cons name rest =>
          rw [List.length_cons, Nat.add_le_add_iff_right, Leads, ← hbelow]
          simp only [List.mem_cons, reduceCtorEq, List.mem_flatMap, List.mem_map, List.cons.injEq,
            false_or, ih]
          constructor
          · rintro ⟨item, hitem, rest', ⟨hlength, hleads⟩, rfl, rfl⟩
            exact ⟨hlength, ⟨item, hitem, rfl⟩, hleads⟩
          · rintro ⟨hlength, ⟨item, hitem, rfl⟩, hleads⟩
            exact ⟨item, hitem, rest, ⟨hlength, hleads⟩, rfl, rfl⟩

/-- They come in their order. -/
theorem pairwise_trails (hdistinct : f.view.Distinct) (hrecursive : f.settings.recursive = true)
    (levels : Nat) (path : String) : (trails f levels path).Pairwise (Precedes f path) := by
  induction levels generalizing path with
  | zero => exact List.pairwise_singleton _ _
  | succ levels ih =>
      rcases belowAt_spec hdistinct hrecursive path with ⟨hat, -, hsorted⟩
      rw [trails, List.pairwise_cons, List.pairwise_flatMap]
      refine ⟨fun t ht => ?_, fun item _ => ?_, hsorted.imp_of_mem ?_⟩
      -- The directory itself comes before all below it.
      · rcases List.mem_flatMap.1 ht with ⟨item, -, ht⟩
        rcases List.mem_map.1 ht with ⟨rest, -, rfl⟩
        exact .above path item.name rest
      -- Ways that start with the same name are in the order of what is left of them.
      · rw [List.pairwise_map]
        exact (ih (Path.join path item.name)).imp .within
      -- Other ways are in the order of the items that they start with.
      · intro item item' hitem hitem' hbefore t ht t' ht'
        rcases List.mem_map.1 ht with ⟨rest, -, rfl⟩
        rcases List.mem_map.1 ht' with ⟨rest', -, rfl⟩
        rw [hat item hitem, hat item' hitem'] at hbefore
        exact .beside hbefore rest rest'

end Ways

/-! ## The same listing with a stack -/

/-- A directory that is still to be listed. -/
structure Pending where
  path : String
  header : String
  /-- How far it is below the target. -/
  depth : Nat

def Pending.child (p : Pending) (item : Item) : Pending :=
  ⟨Path.join p.path item.name, childHeader p.header item.name, p.depth + 1⟩

/-- What is printed of a pending directory, given what is printed of directories. -/
def Pending.spaced (p : Pending) (several : Bool) (shown : Bool → String → String → Report) :
    Report :=
  Report.append ⟨if 0 < p.depth then "\n" else "",
    []⟩ (shown (several || decide (0 < p.depth)) p.path p.header)

/-- One round: the directory on top of the stack is listed, and those in it are put on the stack
from last to first. -/
def round (f : Frame) (several : Bool) : List Pending × Report → Option (List Pending × Report)
  | ([], _) => none
  | (p :: rest, shown) =>
      some ((belowAt f p.path).reverse.foldl (fun stack item => p.child item :: stack) rest,
        shown.append (p.spaced several (sectionAt f)))

/-- Round by round from one stack to another one. -/
def Rounds (f : Frame) (several : Bool) : List Pending × Report → List Pending × Report → Prop :=
  Relation.ReflTransGen fun s s' => round f several s = some s'

section Rounds

variable {f : Frame} {several : Bool} {levels : Nat}

/-- One round lists one directory and puts those below it in front of the others. -/
theorem round_cons (p : Pending) (rest : List Pending) (shown : Report) :
    round f several (p :: rest, shown) =
      some ((belowAt f p.path).map p.child ++ rest,
        shown.append (p.spaced several (sectionAt f))) := by
  rw [round, List.foldl_reverse]
  congr 2
  induction belowAt f p.path with
  | nil => rfl
  | cons item more ih => rw [List.foldr_cons, ih]; rfl

/-- If each directory of a stack comes off it with its report, then all do. -/
theorem rounds_append {reportOf : Pending → Report} {ps : List Pending}
    (h : ∀ p ∈ ps, ∀ rest shown,
      Rounds f several (p :: rest, shown) (rest, shown.append (reportOf p))) (rest : List Pending)
    (shown : Report) :
    Rounds f several (ps ++ rest, shown) (rest,
      shown.append (Report.concat (ps.map reportOf))) := by
  induction ps generalizing shown with
  | nil => rw [List.map_nil, Report.concat_nil, Report.append_empty]; exact .refl
  | cons p more ih =>
      have hfirst := h p List.mem_cons_self (more ++ rest) shown
      have hrest := ih (fun q hq => h q (List.mem_cons_of_mem _ hq)) (shown.append (reportOf p))
      rw [Report.append_assoc] at hrest
      exact hfirst.trans hrest

/-- A tree is its own section and then the trees below it. -/
theorem spaced_tree_succ (p : Pending) :
    p.spaced several (fun titled => tree f titled (levels + 1)) =
      (p.spaced several (sectionAt f)).append (Report.concat
        (((belowAt f p.path).map p.child).map fun q => q.spaced several fun titled =>
          tree f titled levels)) := by
  have hsub : ∀ item, (p.child item).spaced several (fun titled => tree f titled levels) =
      subReport f levels p.path p.header item := by
    intro item
    simp [Pending.spaced, Pending.child, subReport]
  rw [Pending.spaced, tree_succ, List.map_map, Pending.spaced, Report.append_assoc]
  simp only [Function.comp_def, hsub]

/-- If no directory is more than so many levels down, a directory on the stack comes off it with its
listing, and what was on the stack below it is still there. -/
theorem rounds_end (hdistinct : f.view.Distinct) (hrecursive : f.settings.recursive = true)
    (p : Pending) (hdeep : ∀ t, Leads f p.path t → t.length ≤ levels) (rest : List Pending)
    (shown : Report) :
    Rounds f several (p :: rest, shown) (rest,
      shown.append (p.spaced several fun titled => tree f titled levels)) := by
  induction levels generalizing p rest shown with
  | zero =>
      -- Any directory below would be one level too deep, so nothing is put on the stack.
      have hnone : belowAt f p.path = [] := by
        refine List.eq_nil_iff_forall_not_mem.2 fun item hitem => ?_
        have hbelow := ((belowAt_spec hdistinct hrecursive p.path).2.1 item.name).1 ⟨item, hitem,
          rfl⟩
        exact absurd (hdeep [item.name] ⟨hbelow, trivial⟩) (by simp)
      have hround : round f several (p :: rest, shown) = _ := round_cons p rest shown
      rw [hnone] at hround
      have htree : (fun titled => tree f titled 0) = sectionAt f := by
        funext titled path header
        exact tree_zero f titled path header
      rw [htree]
      exact .single hround
  | succ levels ih =>
      have hbelow : ∀ q ∈ (belowAt f p.path).map p.child, ∀ rest shown,
        Rounds f several (q :: rest, shown)
          (rest, shown.append (q.spaced several fun titled => tree f titled levels)) := by
        intro q hq rest shown
        rcases List.mem_map.1 hq with ⟨item, hitem, rfl⟩
        refine ih (p.child item) (fun t ht => ?_) rest shown
        have hname := ((belowAt_spec hdistinct hrecursive p.path).2.1 item.name).1 ⟨item, hitem,
          rfl⟩
        simpa using hdeep (item.name :: t) ⟨hname, ht⟩
      have hrounds := rounds_append hbelow rest (shown.append (p.spaced several (sectionAt f)))
      rw [Report.append_assoc, ← spaced_tree_succ] at hrounds
      exact .head (round_cons p rest shown) hrounds

end Rounds

/-! ## Directories on the disk -/

/-- A view of a disk shows only what is there, though it may fail to. Names come in any order. -/
structure View.Shows (v : View) (d : Disk) : Prop where
  names : ∀ path names, v.names path = .ok names → ∃ names', d.names path = .ok names' ∧
    names.Perm names'
  look : ∀ path e, v.look path = .ok e → d.linkStat path = .ok e

/-- Names that lead down from one directory of a disk to another one, if all of them are shown and
no path is too long. -/
def LeadsOn (d : Disk) (s : Settings) : Route → String → List String → Prop
  | _, _, [] => True
  | route, path, name :: rest =>
      ShowsName s name ∧ (∃ e, d.get? (route ++ [name]) = some e ∧ e.isDirectory = true) ∧
        (Path.join path name).utf8ByteSize ≤ Disk.maxPath ∧
          LeadsOn d s (route ++ [name]) (Path.join path name) rest

section Disks

variable {f : Frame} {d : Disk} {route : Route} {path name : String} {t : List String}

/-- A view of a disk lists no name twice. -/
theorem View.Shows.distinct {v : View} (h : v.Shows d) : v.Distinct := by
  intro path names hnames
  rcases h.names path names hnames with ⟨names', hnames', hperm⟩
  rw [hperm.nodup_iff]
  exact Disk.nodup_of_names hnames'

/-- The plain view of a disk shows it. -/
theorem shows_view (d : Disk) : d.view.Shows d where
  names _ names h := ⟨names, h, .rfl⟩
  look _ _ h := h

/-- A directory that a listing goes on with stands on the disk, and no link is followed to it. -/
theorem IsBelow.enters (hshows : f.view.Shows d) (htree : d.IsTree) (hpath : d.Enters path route)
    (h : IsBelow f path name) :
    IsFileName name ∧ d.Enters (Path.join path name) (route ++ [name]) := by
  rcases h with ⟨names, hnames, hname, -, e, hlook, hdir⟩
  rcases hshows.names path names hnames with ⟨names', hnames', hperm⟩
  rw [hpath.names_eq] at hnames'
  cases hnames'
  rcases List.mem_map.1 (hperm.mem_iff.1 hname) with ⟨⟨name, e'⟩, hchild, rfl⟩
  have hfile : IsFileName name := htree _ _ (Disk.mem_children_iff.1 hchild) name (by simp)
  exact ⟨hfile, hpath.join hfile (hshows.look _ _ hlook) hdir⟩

/-- A trail leads through directories of the disk. -/
theorem Leads.enters (hshows : f.view.Shows d) (htree : d.IsTree) (hpath : d.Enters path route)
    (h : Leads f path t) :
    (∀ name ∈ t, IsFileName name) ∧ d.Enters (descend path t) (route ++ t) := by
  induction t generalizing path route with
  | nil => exact ⟨by simp, by simpa [descend] using hpath⟩
  | cons name rest ih =>
      rcases h with ⟨hname, hrest⟩
      rcases hname.enters hshows htree hpath with ⟨hfile, hjoin⟩
      rcases ih hjoin hrest with ⟨hfiles, hdescend⟩
      rw [List.append_assoc] at hdescend
      exact ⟨by simpa using ⟨hfile, hfiles⟩, hdescend⟩

/-- No way is longer than the longest route. -/
theorem Leads.length_le (hshows : f.view.Shows d) (htree : d.IsTree) (hpath : d.Enters path route)
    (h : Leads f path t) : t.length ≤ d.depth := by
  rcases (h.enters hshows htree hpath).2.get? with ⟨e, he, -⟩
  have hlength := Disk.length_le_depth he
  rw [List.length_append] at hlength
  omega

/-- On the disk itself, the directories below are its children that are directories. -/
theorem isBelow_iff (hview : f.view = d.view) (htree : d.IsTree) (hpath : d.Enters path route) :
    IsBelow f path name ↔ ShowsName f.settings name ∧
      (∃ e, d.get? (route ++ [name]) = some e ∧ e.isDirectory = true) ∧
      (Path.join path name).utf8ByteSize ≤ Disk.maxPath := by
  have hshows : f.view.Shows d := hview ▸ shows_view d
  constructor
  · intro h
    have hfile := (h.enters hshows htree hpath).1
    rcases h with ⟨-, -, -, hshown, e, hlook, hdir⟩
    rcases (hpath.linkStat_join_eq_ok_iff hfile).1 (hshows.look _ _ hlook) with ⟨hget, hshort⟩
    exact ⟨hshown, ⟨e, hget, hdir⟩, hshort⟩
  · rintro ⟨hshown, ⟨e, hget, hdir⟩, hshort⟩
    have hfile : IsFileName name := htree _ _ hget name (by simp)
    refine ⟨_, (congrArg (fun v => v.names path) hview).trans hpath.names_eq, ?_, hshown, e, ?_,
      hdir⟩
    · exact List.mem_map.2 ⟨(name, e), Disk.mem_children_iff.2 hget, rfl⟩
    · rw [hview]
      exact (hpath.linkStat_join_eq_ok_iff hfile).2 ⟨hget, hshort⟩

/-- To a listing that sees all of a disk, the ways are those on the disk. -/
theorem leads_iff (hview : f.view = d.view) (htree : d.IsTree) (hpath : d.Enters path route) :
    Leads f path t ↔ LeadsOn d f.settings route path t := by
  induction t generalizing path route with
  | nil => exact Iff.rfl
  | cons name rest ih =>
      have hrest : IsBelow f path name → (Leads f (Path.join path name) rest ↔
          LeadsOn d f.settings (route ++ [name]) (Path.join path name) rest) :=
        fun hbelow => ih (hbelow.enters (hview ▸ shows_view d) htree hpath).2
      rw [Leads, LeadsOn, and_congr_right hrest, isBelow_iff hview htree hpath, and_assoc,
        and_assoc]

end Disks

/-! ## Headers and complaints -/

/-- A header without slashes at its end. -/
def stem (header : String) : String :=
  String.ofList (Text.dropEndWhile (· == '/') header.toList)

section Headers

variable {f : Frame} {path header name : String} {t : List String} {ts : List (List String)}

/-- The header of a child has a single slash before its name. -/
theorem childHeader_eq (header name : String) :
    childHeader header name = stem header ++ "/" ++ name := by
  rw [childHeader]
  split
  next hdot =>
    subst hdot
    have hstem : stem "." ++ "/" = "./" := by decide
    rw [hstem]
  next => rfl

/-- Behind a name there is no slash to leave out. -/
theorem stem_append_name (front : String) (h : Path.IsProper name) :
    stem (front ++ name) = front ++ name := by
  rcases Path.getLast?_toList h with ⟨c, hlast, hc⟩
  rcases List.getLast?_eq_some_iff.1 hlast with ⟨start, hname⟩
  rw [stem, ← String.toList_inj, String.toList_append, hname, Text.dropEndWhile]
  simp [hc]

/-- Headers grow by one name at each step. -/
theorem headerAlong_concat (header : String) (t : List String) (name : String) :
    headerAlong header (t ++ [name]) = stem (headerAlong header t) ++ "/" ++ name := by
  rw [headerAlong, List.foldl_append, List.foldl_cons, List.foldl_nil, childHeader_eq]
  rfl

/-- Below the top no header ends in a slash. -/
theorem stem_headerAlong (hne : t ≠ []) (h : ∀ name ∈ t, Path.IsProper name) :
    stem (headerAlong header t) = headerAlong header t := by
  rcases List.eq_nil_or_concat' t with rfl | ⟨front, name, rfl⟩
  · exact absurd rfl hne
  · rw [headerAlong_concat]
    exact stem_append_name _ (h name (by simp))

/-- A section complains only if its directory cannot be opened. -/
theorem complaints_sectionOf (f : Frame) (titled : Bool) (path header : String) (t : List String) :
    (sectionOf f titled path header t).complaints =
      (complaintAt f (descend path t) (headerAlong header t)).toList := by
  cases t <;> rfl

/-- One complaint for each directory that cannot be read. -/
theorem complaints_concat_sectionOf (f : Frame) (titled : Bool) (path header : String)
    (ts : List (List String)) :
    (Report.concat (ts.map (sectionOf f titled path header))).complaints =
      ts.filterMap fun t => complaintAt f (descend path t) (headerAlong header t) := by
  rw [Report.complaints_concat, List.flatMap_map, List.filterMap_eq_flatMap_toList]
  simp only [complaints_sectionOf]

end Headers

/-! ## The command -/

/-- Ways from a directory to all those that are listed with it, in the order of their sections. -/
structure Tour (f : Frame) (d : Disk) (path header : String) (route : Route)
    (ts : List (List String)) : Prop where
  /-- The first directory stands at a route of the disk. -/
  start : d.Enters path route
  /-- A way leads from directory to directory, and all such ways are there. -/
  mem_iff : ∀ t, t ∈ ts ↔ Leads f path t
  /-- At the end of each way there is a directory of its own. -/
  stands : ∀ t ∈ ts, ∃ e, d.get? (route ++ t) = some e ∧ e.isDirectory = true
  /-- If all of the disk can be seen, none of the ways on the disk is missing. -/
  complete : f.view = d.view → ∀ t, t ∈ ts ↔ LeadsOn d f.settings route path t
  nodup : ts.Nodup
  ordered : ts.Pairwise (Precedes f path)
  /-- The header of a directory is that of the one above it and its name, with one slash between
  them. -/
  headers : ∀ t name, t ++ [name] ∈ ts →
    headerAlong header (t ++ [name]) = stem (headerAlong header t) ++ "/" ++ name
  /-- Only in the header of the target there can be a slash to leave out. -/
  stems : ∀ t ∈ ts, t ≠ [] → stem (headerAlong header t) = headerAlong header t

section Command

variable {f : Frame} {d : Disk} {path : String} {route : Route}

/-- Of a directory alone, `ls` makes the report on it and what is below it. -/
theorem reportOf_single {view : Disk → View} {args : List String} {d : Desk} {raw : String}
    {e : Entry} (htargets : targetsOf args = [raw])
    (hlook : (view d.scene.host.disk).look (d.scene.pathOf raw) = .ok e)
    (hdir : e.isDirectory = true) :
    reportOf view args d =
      tree (frameOf view args d) false (frameOf view args d).levels (d.scene.pathOf raw) raw := by
  have htarget := target_of_entry (f := frameOf view args d) hlook false raw
  have hone : decide (1 < [raw].length) = false := rfl
  rw [reportOf, htargets, List.map_singleton, hone, report, htarget, reportOn, if_pos hdir]
  simp [report, Report.append]

/-- The trails make a tour of the directories below. -/
theorem tour_trails (hshows : f.view.Shows d) (htree : d.IsTree)
    (hrecursive : f.settings.recursive = true) (hpath : d.Enters path route) (header : String) :
    Tour f d path header route (trails f d.depth path) := by
  have hmem : ∀ t, t ∈ trails f d.depth path ↔ Leads f path t := by
    intro t
    rw [mem_trails_iff hshows.distinct hrecursive]
    exact and_iff_right_of_imp fun h => h.length_le hshows htree hpath
  have henters := fun t ht => ((hmem t).1 ht).enters hshows htree hpath
  have hordered := pairwise_trails hshows.distinct hrecursive d.depth path
  exact
    { start := hpath
      mem_iff := hmem
      stands := fun t ht => (henters t ht).2.get?
      complete := fun hview t => (hmem t).trans (leads_iff hview htree hpath)
      nodup := hordered.imp Precedes.ne
      ordered := hordered
      headers := fun t name _ => headerAlong_concat header t name
      stems := fun t ht hne => stem_headerAlong hne fun name hname =>
        ((henters t ht).1 name hname).proper }

end Command

end Listing

open Listing

/-- `ls -R` of a directory ends, and prints one section for this directory and one for each below it
that it can come to through directories that are shown, links left aside. A directory comes before
those below it, and those in one directory come in the order of its listing, each with all below it.
A directory that cannot be read has its complaint, and the others are listed all the same. A listing
that keeps the directories still to be listed on a stack comes to its end with the same report. -/
theorem recursive_listing_visits_each_directory_once (view : Disk → View) (args : List String)
    (stdin : Option Bytes) (d : Desk) (raw : String) (e : Entry)
    (hshows : (view d.scene.host.disk).Shows d.scene.host.disk) (htree : d.scene.host.disk.IsTree)
    (hknown : ∀ flag ∈ flagsIn args, knows flag = true) (hrecursive : "-R" ∈ flagsIn args)
    (htargets : targetsOf args = [raw])
    (hlook : (view d.scene.host.disk).look (d.scene.pathOf raw) = .ok e)
    (hdir : e.isDirectory = true) :
    let f := frameOf view args d
    let path := d.scene.pathOf raw
    ∃ route ts, Tour f d.scene.host.disk path raw route ts ∧
      let whole := Report.concat (ts.map (sectionOf f false path raw))
      runOn (Builtin.lsThrough view args stdin) d = runOn (announce whole) d ∧
      Rounds f false ([⟨path, raw, 0⟩], {}) ([], whole) ∧
      whole.complaints = ts.filterMap fun t =>
        complaintAt f (descend path t) (headerAlong raw t) := by
  intro f path
  have hsettings : f.settings.recursive = true := (recursive_settingsOf _).2 hrecursive
  -- What can be listed stands on the disk, so the walk has a route to start from.
  have hfind : ∃ route, d.scene.host.disk.find .name path = .ok (route, e) := by
    have hstat := hshows.look _ _ hlook
    rw [Disk.linkStat] at hstat
    cases hplace : d.scene.host.disk.find .name path with
    | error fault => rw [hplace] at hstat; cases hstat
    | ok place => rw [hplace] at hstat; cases hstat; exact ⟨place.1, rfl⟩
  rcases hfind with ⟨route, hfind⟩
  rcases Path.exists_spells_resolve d.scene.cwd (Path.expandHome d.scene.home raw)
    with ⟨names, hspells⟩
  have hpath : d.scene.host.disk.Enters path route := Disk.enters_of_find hspells hfind hdir
  have htour := tour_trails (f := f) hshows htree hsettings hpath raw
  refine ⟨route, _, htour, ?_, ?_, complaints_concat_sectionOf _ _ _ _ _⟩
  · rw [runOn_lsThrough hknown, reportOf_single htargets hlook hdir, tree_eq_sections]
    rfl
  · have hrounds : Rounds f false ([⟨path, raw, 0⟩], {}) _ :=
      rounds_end hshows.distinct hsettings ⟨path, raw, 0⟩
        (fun _ ht => ht.length_le hshows htree hpath) [] {}
    rw [← tree_eq_sections]
    simpa [Pending.spaced, Report.append] using hrounds

/-- A desk at a directory with two others in it, one of which holds a link to the directory
above. -/
def loopedDesk : Desk :=
  let root := ({} : Disk).set [] (Disk.plainDirectory 0)
  let one := (root.set ["d"] (Disk.plainDirectory 0)).set ["d", "a"] (Disk.plainDirectory 0)
  let two := (one.set ["d", "a", "up"] ⟨.link "/d", 0o777, 0⟩).set ["d",
    "b"] (Disk.plainDirectory 0)
  ⟨{ host := { disk := two.set ["d", "b", "c"] (Disk.plainDirectory 0) } }, .memory, .memory⟩

/-- What a listing sees of a disk on which one directory cannot be read. -/
def closing (closed : String) (d : Disk) : View :=
  ⟨fun path => if path = closed then .error .denied else d.names path, d.linkStat, d.extentAt⟩

/-- A view in which one directory is closed shows the disk. -/
theorem shows_closing (closed : String) (d : Disk) : (closing closed d).Shows d where
  names path names h := by
    change (if path = closed then Except.error Fault.denied else d.names path) = .ok names at h
    split at h
    · cases h
    · exact ⟨names, h, .rfl⟩
  look _ _ h := h

/-- What a recursive listing of the first directory sees if the second one in it cannot be read. -/
def loopedFrame : Frame :=
  frameOf (closing "/d/b") ["-R", "d"] loopedDesk

/-- In this tree the links lead back up, and nothing is below the two directories. -/
theorem isBelow_looped (name : String) :
    (IsBelow loopedFrame "/d" name ↔ name = "a" ∨ name = "b") ∧ ¬ IsBelow loopedFrame "/d/a" name ∧
      ¬ IsBelow loopedFrame "/d/b" name := by
  -- What each of the three directories shows when it is opened.
  have hupper : loopedFrame.view.names "/d" = .ok ["a", "b"] := rfl
  have hlink : loopedFrame.view.names "/d/a" = .ok ["up"] := rfl
  have hclosed : loopedFrame.view.names "/d/b" = .error .denied := rfl
  refine ⟨⟨?_, ?_⟩, ?_, ?_⟩
  · rintro ⟨names, hnames, hname, -⟩
    rw [hupper] at hnames
    cases hnames
    simpa using hname
  · rintro (rfl | rfl)
    · exact ⟨_, hupper, by decide, .inr (by decide), Disk.plainDirectory 0, rfl, by decide⟩
    · exact ⟨_, hupper, by decide, .inr (by decide), Disk.plainDirectory 0, rfl, by decide⟩
  · rintro ⟨names, hnames, hname, -, e, hlook, hdir⟩
    rw [hlink] at hnames
    cases hnames
    cases List.mem_singleton.1 hname
    have hup : loopedFrame.view.look (Path.join "/d/a" "up") = .ok ⟨.link "/d", 0o777, 0⟩ := rfl
    rw [hup] at hlook
    cases hlook
    exact absurd hdir (by decide)
  · rintro ⟨names, hnames, -⟩
    rw [hclosed] at hnames
    cases hnames

/-- The trails end at the links. -/
theorem leads_looped (t : List String) :
    Listing.Leads loopedFrame "/d" t ↔ t ∈ [[], ["a"], ["b"]] := by
  constructor
  · intro h
    cases t with
    | nil => decide
    | cons name rest =>
        have hend : rest = [] := by
          cases rest with
          | nil => rfl
          | cons next more =>
              rcases (isBelow_looped name).1.1 h.1 with rfl | rfl
              · exact absurd h.2.1 (isBelow_looped next).2.1
              · exact absurd h.2.1 (isBelow_looped next).2.2
        rcases (isBelow_looped name).1.1 h.1 with rfl | rfl <;> rw [hend] <;> decide
  · intro h
    simp only [List.mem_cons, List.not_mem_nil, or_false] at h
    rcases h with rfl | rfl | rfl
    · trivial
    · exact ⟨(isBelow_looped "a").1.2 (.inl rfl), trivial⟩
    · exact ⟨(isBelow_looped "b").1.2 (.inr rfl), trivial⟩

/-- Neither the link to the directory above nor the directory that cannot be read keeps the listing
from its end. -/
theorem looped_link_and_closed_directory_listed_once :
    ∃ (ts : List (List String)) (whole : Report), ts.Perm [[], ["a"], ["b"]] ∧
      runOn (Builtin.lsThrough (closing "/d/b") ["-R", "d"] none) loopedDesk =
        runOn (announce whole) loopedDesk ∧
      whole.complaints = ["ls: cannot open directory 'd/b': Permission denied"] := by
  have htree : loopedDesk.scene.host.disk.IsTree := by decide
  rcases recursive_listing_visits_each_directory_once (closing "/d/b") ["-R",
    "d"] none loopedDesk "d" (Disk.plainDirectory 0) (shows_closing "/d/b" _) htree (by decide) (by
      decide) (by decide) rfl (by decide) with
    ⟨route, ts, htour, hrun, -, hcomplaints⟩
  have hts : ts.Perm [[], ["a"], ["b"]] :=
    (List.perm_ext_iff_of_nodup htour.nodup (by decide)).2 fun t =>
      (htour.mem_iff t).trans (leads_looped t)
  refine ⟨ts, _, hts, hrun, ?_⟩
  rw [hcomplaints]
  exact List.perm_singleton.1 (hts.filterMap _)

end LineShell
