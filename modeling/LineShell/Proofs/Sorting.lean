import Mathlib.Data.List.Nodup
import LineShell.Proofs.ByteOrder
import LineShell.Proofs.Directories
import LineShell.Proofs.Reports

/-!
# Sorting — listings and the order of enumeration

A system enumerates the names in a directory in an order of its own. A listing sorts them by an
order that separates any two names, so what it prints does not depend on that.

* `Before`, `eq_of_before` — which of two items comes first, and that this leaves one order;
* `sorted_perm`, `pairwise_sorted` — every item that is shown, once, in its place;
* `sorted_eq_of_perm` — whatever order the items came in;
* `View.Reorders`, `report_eq_of_reorders` — the same disk, enumerated in another order;
* `Row`, `lines_rows` — what is printed of an item;
* `items_spec`, `tree_of_items` — what is printed of a directory;
* `listing_ignores_enumeration` — all of it for `ls`.
-/

namespace LineShell
namespace Listing

/-! ## Which item comes first -/

/-- By the bytes of the small form, and among names that differ in case only by their own bytes. -/
def NameBefore (a b : Item) : Prop :=
  Utf8.encode (Text.lower a.name) < Utf8.encode (Text.lower b.name) ∨
    Text.lower a.name = Text.lower b.name ∧ Utf8.encode a.name < Utf8.encode b.name

/-- An item is newer than those that are older and those without a time. -/
def Newer (a b : Item) : Prop :=
  ∃ moment, a.modified = some moment ∧ ∀ earlier ∈ b.modified, earlier < moment

/-- The larger or the newer item comes first, and among equal ones the order of names decides. -/
def Before (key : Key) (a b : Item) : Prop :=
  match key with
  | .name => NameBefore a b
  | .size => b.size < a.size ∨ a.size = b.size ∧ NameBefore a b
  | .time => Newer a b ∨ a.modified = b.modified ∧ NameBefore a b

section Order

variable {key : Key} {a b : Item}

instance : Std.TransCmp byName :=
  inferInstanceAs (Std.TransCmp (compareLex (compareOn fun i : Item =>
    Text.lower i.name) (compareOn Item.name)))

instance : Std.TransCmp (order key) :=
  match key with
  | .name => inferInstanceAs (Std.TransCmp byName)
  | .size =>
      have : Std.TransCmp fun a b : Item => compare b.size a.size :=
        @Std.TransCmp.opposite _ (compareOn Item.size) _
      inferInstanceAs (Std.TransCmp (compareLex (fun a b : Item => compare b.size a.size) byName))
  | .time =>
      have : Std.TransCmp fun a b : Item => compare b.modified a.modified :=
        @Std.TransCmp.opposite _ (compareOn Item.modified) _
      inferInstanceAs (Std.TransCmp (compareLex (fun a b : Item => compare b.modified a.modified)
        byName))

/-- The comparison by names puts smaller names first. -/
theorem nameBefore_of_byName (h : byName a b = .lt) : NameBefore a b := by
  rw [byName, Ordering.then_eq_lt] at h
  rcases h with hlower | ⟨hlower, hname⟩
  · exact .inl (Utf8.encode_lt_encode hlower)
  · exact .inr ⟨Std.LawfulEqCmp.eq_of_compare hlower, Utf8.encode_lt_encode hname⟩

theorem newer_of_compare (h : compare b.modified a.modified = .lt) : Newer a b := by
  unfold Newer
  cases ha : a.modified with
  | none =>
      rw [ha] at h
      cases hb : b.modified <;> rw [hb] at h <;> cases h
  | some moment =>
      refine ⟨moment, rfl, fun earlier hearlier => ?_⟩
      rw [ha, Option.mem_def.1 hearlier] at h
      exact Int.compare_eq_lt.1 h

/-- The comparison puts items in the order that is asked for. -/
theorem before_of_order (h : order key a b = .lt) : Before key a b := by
  cases key with
  | name => exact nameBefore_of_byName h
  | size =>
      rcases Ordering.then_eq_lt.1 h with hsize | ⟨hsize, hname⟩
      · exact .inl (Nat.compare_eq_lt.1 hsize)
      · exact .inr ⟨(Nat.compare_eq_eq.1 hsize).symm, nameBefore_of_byName hname⟩
  | time =>
      rcases Ordering.then_eq_lt.1 h with htime | ⟨htime, hname⟩
      · exact .inl (newer_of_compare htime)
      · exact .inr ⟨(Std.LawfulEqCmp.eq_of_compare htime).symm, nameBefore_of_byName hname⟩

theorem nameBefore_asymm (h : NameBefore a b) : ¬ NameBefore b a := by
  rcases h with hlower | ⟨hlower, hname⟩
  · rintro (hlower' | ⟨hlower', -⟩)
    · exact List.lt_asymm hlower hlower'
    · rw [hlower'] at hlower
      exact List.lt_irrefl _ hlower
  · rintro (hlower' | ⟨-, hname'⟩)
    · rw [hlower] at hlower'
      exact List.lt_irrefl _ hlower'
    · exact List.lt_asymm hname hname'

theorem Newer.modified_ne (h : Newer a b) : a.modified ≠ b.modified := by
  rcases h with ⟨moment, ha, hearlier⟩
  intro hsame
  exact Int.lt_irrefl _ (hearlier moment (hsame ▸ ha))

theorem newer_asymm (h : Newer a b) : ¬ Newer b a := by
  rcases h with ⟨moment, ha, hearlier⟩
  rintro ⟨moment', hb, hearlier'⟩
  exact Int.lt_asymm (hearlier moment' hb) (hearlier' moment ha)

/-- Of two items, only one comes before the other. -/
theorem before_asymm (h : Before key a b) : ¬ Before key b a := by
  cases key with
  | name => exact nameBefore_asymm h
  | size =>
      rcases h with hsize | ⟨hsize, hname⟩
      · rintro (hsize' | ⟨hsize', -⟩)
        · exact Nat.lt_asymm hsize hsize'
        · exact Nat.ne_of_lt hsize hsize'
      · rintro (hsize' | ⟨-, hname'⟩)
        · exact Nat.ne_of_lt hsize' hsize
        · exact nameBefore_asymm hname hname'
  | time =>
      rcases h with hnewer | ⟨htime, hname⟩
      · rintro (hnewer' | ⟨htime', -⟩)
        · exact newer_asymm hnewer hnewer'
        · exact hnewer.modified_ne htime'.symm
      · rintro (hnewer' | ⟨-, hname'⟩)
        · exact hnewer'.modified_ne htime.symm
        · exact nameBefore_asymm hname hname'

/-- There is only one way to put items in order. -/
theorem eq_of_before {l l' : List Item} (hperm : l.Perm l') (h : l.Pairwise (Before key))
    (h' : l'.Pairwise (Before key)) : l = l' :=
  hperm.eq_of_pairwise (fun _ _ _ _ hab hba => absurd hba (before_asymm hab)) h h'

/-- Only one name has its place. -/
theorem name_eq_of_order (h : order key a b = .eq) : a.name = b.name := by
  have hname : byName a b = .eq := by
    cases key with
    | name => exact h
    | size => exact (Ordering.then_eq_eq.1 h).2
    | time => exact (Ordering.then_eq_eq.1 h).2
  exact Std.LawfulEqCmp.eq_of_compare (Ordering.then_eq_eq.1 hname).2

/-- Items with different names are never tied. -/
theorem order_eq_lt (h : (order key a b).isLE) (hne : a.name ≠ b.name) : order key a b = .lt := by
  cases hab : order key a b with
  | lt => rfl
  | eq => exact absurd (name_eq_of_order hab) hne
  | gt =>
      rw [hab] at h
      cases h

end Order

/-! ## Sorting -/

section Sorted

variable {s : Settings} {items items' : List Item}

/-- Sorting keeps just the items that are shown. -/
theorem sorted_perm (s : Settings) (items : List Item) :
    (sorted s items).Perm (items.filter (shows s)) :=
  List.mergeSort_perm _ _

/-- Sorted items are in order. -/
theorem isLE_sorted (s : Settings) (items : List Item) :
    (sorted s items).Pairwise fun a b => (order s.key a b).isLE := by
  apply List.pairwise_mergeSort
  · intro a b c hab hbc
    exact Std.TransCmp.isLE_trans hab hbc
  · intro a b
    have hswap : order s.key a b = (order s.key b a).swap := Std.OrientedCmp.eq_swap
    rw [hswap]
    cases order s.key b a <;> rfl

/-- Items with different names are strictly in order. -/
theorem pairwise_sorted (h : (items.map Item.name).Nodup) :
    (sorted s items).Pairwise (Before s.key) := by
  have hnames : ((sorted s items).map Item.name).Nodup := by
    rw [((sorted_perm s items).map Item.name).nodup_iff]
    exact h.sublist (List.filter_sublist.map _)
  refine (List.pairwise_and_iff.2 ⟨isLE_sorted s items, List.pairwise_map.1 hnames⟩).imp ?_
  rintro a b ⟨hle, hne⟩
  exact before_of_order (order_eq_lt hle hne)

/-- Items with different names are sorted in one way only. -/
theorem sorted_eq_of_perm (h : (items.map Item.name).Nodup) (hperm : items.Perm items') :
    sorted s items = sorted s items' := by
  have hshown : (sorted s items).Perm (sorted s items') :=
    (sorted_perm s items).trans ((hperm.filter _).trans (sorted_perm s items').symm)
  have hnames : (items'.map Item.name).Nodup := (hperm.map Item.name).nodup_iff.1 h
  exact eq_of_before hshown (pairwise_sorted h) (pairwise_sorted hnames)

end Sorted

/-! ## The items of a directory -/

/-- What is enumerated is the same in another order, or fails alike. -/
inductive SameNames : Except Fault (List String) → Except Fault (List String) → Prop where
  | ok {names names' : List String} (h : names.Perm names') : SameNames (.ok names) (.ok names')
  | error (fault : Fault) : SameNames (.error fault) (.error fault)

/-- Two views of one disk, which may be enumerated in two orders. -/
structure View.Reorders (v v' : View) : Prop where
  names : ∀ path, SameNames (v.names path) (v'.names path)
  look : ∀ path, v.look path = v'.look path
  extent : ∀ path, v.extent path = v'.extent path

def View.Distinct (v : View) : Prop :=
  ∀ path names, v.names path = .ok names → names.Nodup

def ShowsName (s : Settings) (name : String) : Prop :=
  s.hidden = true ∨ name.toList.head? ≠ some '.'

section Items

variable {f : Frame} {path : String} {names : List String} {found : List Item} {v' : View}

theorem names_itemAt (f : Frame) (path : String) (names : List String) :
    (names.map (itemAt f path)).map Item.name = names := by
  rw [List.map_map]
  exact List.map_id names

/-- Whether an item is shown depends on its name. -/
theorem shows_iff {s : Settings} {item : Item} : shows s item = true ↔ ShowsName s item.name := by
  simp [shows, ShowsName]

/-- Items do not depend on the order in which names are read. -/
theorem items_eq_of_reorders (hdistinct : f.view.Distinct) (h : f.view.Reorders v')
    (path : String) :
    items f path = items { f with view := v' } path := by
  have hat : itemAt f path = itemAt { f with view := v' } path := by
    funext name
    rw [itemAt, itemAt, h.look, h.extent]
  rw [items, items]
  have hnames := h.names path
  -- Both views list the directory, or neither does, for the same reason.
  cases hv : f.view.names path with
  | error fault =>
      rw [hv] at hnames
      cases hv' : v'.names path <;> rw [hv'] at hnames <;> cases hnames
      rfl
  | ok names =>
      rw [hv] at hnames
      cases hv' : v'.names path with
      | error fault =>
          rw [hv'] at hnames
          cases hnames
      | ok names' =>
          rw [hv'] at hnames
          cases hnames with
          | ok hperm =>
              have hnodup : ((names.map (itemAt f path)).map Item.name).Nodup := by
                rw [names_itemAt]
                exact hdistinct path names hv
              have hsorted := sorted_eq_of_perm (s := f.settings) hnodup (hperm.map (itemAt f path))
              change Except.ok (sorted f.settings (names.map (itemAt f path))) = .ok _
              rw [hsorted, hat]

/-- The items of a directory are what stands behind the names that are shown, each once and in
order. -/
theorem items_spec (hdistinct : names.Nodup) (h : f.view.names path = .ok names) :
    ∃ found, items f path = .ok found ∧
      (∀ item, item ∈ found ↔ ∃ name ∈ names, ShowsName f.settings name ∧
        item = itemAt f path name) ∧
      (found.map Item.name).Nodup ∧ found.Pairwise (Before f.settings.key) := by
  have hnodup : ((names.map (itemAt f path)).map Item.name).Nodup := by rwa [names_itemAt]
  have hperm := sorted_perm f.settings (names.map (itemAt f path))
  refine ⟨_, items_of_names h, fun item => ?_, ?_, pairwise_sorted hnodup⟩
  · rw [hperm.mem_iff, List.mem_filter, List.mem_map, shows_iff]
    constructor
    · rintro ⟨⟨name, hname, rfl⟩, hshown⟩
      exact ⟨name, hname, hshown, rfl⟩
    · rintro ⟨name, hname, hshown, rfl⟩
      exact ⟨⟨name, hname, rfl⟩, hshown⟩
  · rw [(hperm.map Item.name).nodup_iff]
    exact hnodup.sublist (List.filter_sublist.map _)

end Items

/-! ## Rows -/

/-- The row of an item: its name, with a mark behind it if marks are asked for. A directory may be
in color. In a long listing the mode, the size and the time come first, and all sizes end in the
same column. -/
def Row (s : Settings) (colors : Bool) (width : Nat) (item : Item) (row : String) : Prop :=
  ∃ columns mark shown,
    row = columns ++ shown ++ "\n" ∧
    (s.long = false → columns = "") ∧
    (s.long = true → ∃ blanks, (∀ c ∈ blanks.toList, c = ' ') ∧
      (blanks ++ sizeText s item).length = width ∧
      columns = modeText item ++ " " ++ blanks ++ sizeText s item ++ " " ++ timeText item ++ " ") ∧
    (s.classify = false → mark = "") ∧
    (s.classify = true →
      mark = if item.isDirectory = true then "/" else if item.isExecutable = true then "*"
        else "") ∧
    shown =
      if colors = true ∧ item.isDirectory = true then Text.paint .brightGreen (item.name ++ mark)
      else item.name ++ mark

section Rows

variable {s : Settings} {colors : Bool} {item : Item} {width : Nat}

theorem foldl_max_ge (ns : List Nat) (n : Nat) : n ≤ ns.foldl max n := by
  induction ns generalizing n with
  | nil => exact Nat.le_refl _
  | cons m ns ih => exact Nat.le_trans (Nat.le_max_left _ _) (ih _)

theorem le_foldl_max {ns : List Nat} {n : Nat} (m : Nat) (h : n ∈ ns) : n ≤ ns.foldl max m := by
  induction ns generalizing m with
  | nil => cases h
  | cons first ns ih =>
      rcases List.mem_cons.1 h with rfl | hrest
      · exact Nat.le_trans (Nat.le_max_right _ _) (foldl_max_ge ns _)
      · exact ih _ hrest

/-- The column of sizes is wide enough for each of them. -/
theorem length_sizeText_le {items : List Item} (h : item ∈ items) :
    (sizeText s item).length ≤ sizeWidth s items :=
  le_foldl_max 0 (List.mem_map.2 ⟨item, h, rfl⟩)

/-- There is room for the size of an item, so its line is its row. -/
theorem line_row (hwidth : (sizeText s item).length ≤ width) :
    Row s colors width item (line s colors width item) := by
  let mark := if !s.classify then "" else if item.isDirectory then "/" else if item.isExecutable
    then "*" else ""
  -- The parts that the row speaks of, as the line puts them together.
  let blanks := String.ofList (List.replicate (width - (sizeText s item).length) ' ')
  let columns := modeText item ++ " " ++ blanks ++ sizeText s item ++ " " ++ timeText item ++ " "
  refine ⟨if s.long then columns else "", mark, nameText s colors item, ?_, ?_, ?_, ?_, ?_, ?_⟩
  · cases hlong : s.long with
    | false => simp [line, hlong]
    | true =>
        have hline : line s colors width item =
          modeText item ++ " " ++ (blanks ++ sizeText s item) ++ " " ++
            timeText item ++ " " ++ nameText s colors item ++ "\n" := by
          rw [line, hlong]
          rfl
        rw [hline]
        simp only [columns, if_true, String.append_assoc]
  · intro hlong
    rw [hlong]
    rfl
  · intro hlong
    refine ⟨blanks, fun c hc => ?_, ?_, by rw [hlong]; rfl⟩
    · rw [String.toList_ofList] at hc
      exact List.eq_of_mem_replicate hc
    · simp only [String.length_append, String.length_ofList, List.length_replicate, blanks]
      omega
  · intro hclassify
    simp [mark, hclassify]
  · intro hclassify
    simp [mark, hclassify]
  · simp only [nameText, Bool.and_eq_true]
    rfl

/-- The lines of items are their rows, one after the other. -/
theorem lines_rows (s : Settings) (colors : Bool) (items : List Item) :
    ∃ width rows, lines s colors items = String.join rows ∧
      List.Forall₂ (Row s colors width) items rows := by
  refine ⟨sizeWidth s items, _, rfl, ?_⟩
  rw [List.forall₂_map_right_iff, List.forall₂_same]
  exact fun item hitem => line_row (length_sizeText_le hitem)

end Rows

/-! ## Reports -/

section Reports

variable {f : Frame} {v' : View}

/-- Trees do not depend on the order in which names are read. -/
theorem tree_eq_of_reorders (hdistinct : f.view.Distinct) (h : f.view.Reorders v') (levels : Nat)
    (titled : Bool) (path header : String) :
    tree f titled levels path header = tree { f with view := v' } titled levels path header := by
  induction levels generalizing titled path header with
  | zero =>
      rw [tree, tree, items_eq_of_reorders hdistinct h]
  | succ levels ih =>
      rw [tree, tree, items_eq_of_reorders hdistinct h]
      simp only [ih]

/-- Targets do not depend on the order in which names are read. -/
theorem target_eq_of_reorders (hdistinct : f.view.Distinct) (h : f.view.Reorders v') (titled : Bool)
    (raw path : String) :
    target f titled raw path = target { f with view := v' } titled raw path := by
  rw [target, target, h.look]
  simp only [tree_eq_of_reorders hdistinct h]

/-- Reports do not depend on the order in which names are read. -/
theorem report_eq_of_reorders (hdistinct : f.view.Distinct) (h : f.view.Reorders v')
    (several : Bool) (targets : List (String × String)) :
    report f several targets = report { f with view := v' } several targets := by
  induction targets with
  | nil => rfl
  | cons first rest ih => rw [report, report, target_eq_of_reorders hdistinct h, ih]

end Reports

/-! ## The command -/

section Command

variable {f : Frame} {path : String} {names : List String} {found : List Item}

/-- The listing of a directory starts with the lines of its items. Without the recursive flag, that
is all. -/
theorem tree_of_items (h : items f path = .ok found) (titled : Bool) (levels : Nat)
    (header : String) :
    ∃ below complaints,
      tree f titled levels path header =
        ⟨title titled header ++ lines f.settings f.colors found ++ below, complaints⟩ ∧
      (f.settings.recursive = false → below = "" ∧ complaints = []) := by
  cases levels with
  | zero => exact ⟨"", [], by rw [tree_zero_of_items h, String.append_empty], fun _ => ⟨rfl, rfl⟩⟩
  | succ levels =>
      refine ⟨_, _, tree_succ_of_items h titled levels header, fun hrecursive => ?_⟩
      simp [goesOn, hrecursive]

/-- `ls` does the same through another view of the same disks. -/
theorem lsThrough_eq_of_reorders {view view' : Disk → View}
    (hdistinct : ∀ disk, (view disk).Distinct) (hsame : ∀ disk, (view disk).Reorders (view' disk)) :
    Builtin.lsThrough view = Builtin.lsThrough view' := by
  funext args stdin
  by_cases hknown : ∀ flag ∈ flagsIn args, knows flag = true
  · funext d
    change runOn (Builtin.lsThrough view args stdin) d =
      runOn (Builtin.lsThrough view' args stdin) d
    rw [runOn_lsThrough hknown, runOn_lsThrough hknown, reportOf, reportOf,
      report_eq_of_reorders (hdistinct _) (hsame d.scene.host.disk)]
    rfl
  · have hunknown : ∃ flag ∈ flagsIn args, knows flag = false := by simpa using hknown
    rw [lsThrough_refuses view stdin hunknown, lsThrough_refuses view' stdin hunknown]

/-- The report on a target is part of the whole one, and the whole of it if there is no other. -/
theorem exists_report_of_mem {several : Bool} {targets : List (String × String)} {raw : String}
    {shown : Report} (hmem : (raw, path) ∈ targets) (h : target f several raw path = .ok shown) :
    ∃ before after : Report, report f several targets = before.append (shown.append after) ∧
      (targets.length = 1 → before = {} ∧ after = {}) := by
  -- What is printed in front of a target comes from those before it, and what is printed behind
  -- from the others.
  induction targets with
  | nil => cases hmem
  | cons first rest ih =>
      rcases List.mem_cons.1 hmem with rfl | hrest
      · let gap := if several && !rest.isEmpty then "\n" else ""
        refine ⟨{}, Report.append ⟨gap, []⟩ (report f several rest), ?_, fun hone => ?_⟩
        · rw [report, h, Report.empty_append]
          exact Report.append_assoc _ _ _
        · rw [List.length_cons, Nat.add_eq_right, List.length_eq_zero_iff] at hone
          subst hone
          simp [report, Report.append, gap]
      · rcases ih hrest with ⟨before, after, hreport, -⟩
        have hone : (first :: rest).length ≠ 1 := by
          simpa using List.ne_nil_of_mem hrest
        rw [report, hreport]
        split
        · exact ⟨_, after, (Report.append_assoc _ _ _).symm, fun h => absurd h hone⟩
        · exact ⟨_, after, (Report.append_assoc _ _ _).symm, fun h => absurd h hone⟩

end Command

end Listing

open Listing

/-- `ls` does the same in whatever order directories are enumerated, provided that no directory has
a name twice. Of a directory among its targets it prints, behind the header, one row for each name
that is shown: names with a dot in front only if a flag asks for them. The rows are in the order
that the last flag for an order asks for. Without the recursive flag nothing follows, and of one
target that is all. -/
theorem listing_ignores_enumeration (view view' : Disk → View)
    (hdistinct : ∀ disk, (view disk).Distinct) (hsame : ∀ disk, (view disk).Reorders (view' disk)) :
    Builtin.lsThrough view = Builtin.lsThrough view' ∧
    ∀ args stdin d raw e names, (∀ flag ∈ flagsIn args, knows flag = true) → raw ∈ targetsOf args →
      let f := frameOf view args d
      let path := d.scene.pathOf raw
      f.view.look path = .ok e → e.isDirectory = true → f.view.names path = .ok names →
      ∃ (found : List Listing.Item) (width : Nat) (rows : List String) (below : String)
        (complaints : List String) (before after : Report),
        runOn (Builtin.lsThrough view args stdin) d =
          runOn (announce (before.append (Report.append
            ⟨(if 1 < (targetsOf args).length then raw ++ ":\n" else "") ++ String.join rows ++
              below, complaints⟩
            after))) d ∧
        (targetsOf args = [raw] → before = {} ∧ after = {}) ∧
        (f.settings.recursive = false → below = "" ∧ complaints = []) ∧
        List.Forall₂ (Row f.settings f.colors width) found rows ∧
        (∀ item, item ∈ found ↔ ∃ name ∈ names,
          ("-a" ∈ flagsIn args ∨ "--all" ∈ flagsIn args ∨ name.toList.head? ≠ some '.') ∧
            item = itemAt f path name) ∧
        (found.map Item.name).Nodup ∧
        found.Pairwise (Before (((flagsIn args).filterMap keyOf?).getLast?.getD .name)) := by
  refine ⟨lsThrough_eq_of_reorders hdistinct hsame, fun args stdin d raw e names hknown hraw => ?_⟩
  intro f path hlook hdir hnames
  -- The items, their rows, the tree below them and the report around it, from the inside out.
  rcases items_spec (hdistinct _ path names hnames) hnames
    with ⟨found, hitems, hmem, hnodup, hsorted⟩
  rcases lines_rows f.settings f.colors found with ⟨width, rows, hlines, hrows⟩
  rcases tree_of_items hitems (1 < (targetsOf args).length) f.levels raw
    with ⟨below, complaints, htree, hbelow⟩
  have htarget : target f (1 < (targetsOf args).length) raw path = .ok _ :=
    target_of_entry hlook _ raw
  rw [reportOn, if_pos hdir, htree, hlines] at htarget
  have hlisted : (raw, path) ∈ (targetsOf args).map fun raw => (raw, d.scene.pathOf raw) :=
    List.mem_map.2 ⟨raw, hraw, rfl⟩
  rcases exists_report_of_mem hlisted htarget with ⟨before, after, hreport, halone⟩
  refine ⟨found, width, rows, below, complaints, before, after, ?_, fun hone => ?_, hbelow, hrows,
    fun item => ?_, hnodup, ?_⟩
  · rw [runOn_lsThrough hknown, reportOf, hreport, title]
    simp only [decide_eq_true_eq]
  · exact halone (by rw [hone]; rfl)
  · have hshows : ∀ name, ShowsName f.settings name ↔
        ("-a" ∈ flagsIn args ∨ "--all" ∈ flagsIn args ∨ name.toList.head? ≠ some '.') := by
      intro name
      rw [ShowsName, ← or_assoc]
      exact or_congr_left (hidden_settingsOf (flagsIn args))
    simp only [hmem, hshows]
  · rw [← key_settingsOf]
    exact hsorted

/-- A desk at a directory with three names. -/
def mixedDesk : Desk :=
  let root := ({} : Disk).set [] (Disk.plainDirectory 0)
  let one := root.set [".h"] ⟨.file (.ofBytes []), Disk.fileMode, 0⟩
  let two := one.set ["B"] (Disk.plainDirectory 0)
  ⟨{ host := { disk := two.set ["a"] ⟨.file (.ofBytes []), Disk.fileMode, 0⟩ } }, .memory, .memory⟩

/-- What a listing sees of a disk that is enumerated from its end. -/
def backwards (d : Disk) : View :=
  ⟨fun path => (d.names path).map List.reverse, d.linkStat, d.extentAt⟩

/-- A disk lists no name twice. -/
theorem distinct_view (d : Disk) : d.view.Distinct :=
  fun _ _ => Disk.nodup_of_names

/-- Reading names backwards is one way to reorder them. -/
theorem reorders_backwards (d : Disk) : d.view.Reorders (backwards d) where
  names path := by
    change SameNames (d.names path) ((d.names path).map List.reverse)
    cases d.names path with
    | error fault => exact .error fault
    | ok names => exact .ok (List.reverse_perm names).symm
  look _ := rfl
  extent _ := rfl

/-- The row of an item in a short listing without marks is its name. -/
theorem Listing.Row.eq_name {s : Settings} {colors : Bool} {width : Nat} {item : Listing.Item}
    {row : String} (h : Row s colors width item row) (hlong : s.long = false)
    (hclassify : s.classify = false) (hcolors : colors = false) : row = item.name ++ "\n" := by
  rcases h with ⟨columns, mark, shown, rfl, hcolumns, -, hmark, -, rfl⟩
  rw [hcolumns hlong, hmark hclassify, hcolors]
  simp

/-- Three names, one of them hidden, from both ends: the other two are printed, and the capital
letter counts as a small one. -/
theorem hidden_name_left_out_from_both_ends :
    Builtin.lsThrough backwards = Builtin.ls ∧
      runOn (Builtin.ls [] none) mixedDesk =
        (.ok .success, { mixedDesk with out := .buffer [97, 10, 66, 10] }) := by
  rcases listing_ignores_enumeration Disk.view backwards distinct_view reorders_backwards
    with ⟨hsame, hlists⟩
  refine ⟨hsame.symm, ?_⟩
  rcases hlists [] none mixedDesk "." (Disk.plainDirectory 0) [".h", "B", "a"] (by simp) (by decide)
    (by rfl) (by decide) (by rfl) with ⟨found, width, rows, below, complaints, before, after, hrun,
      halone, hbelow, hrows, hmem, hnodup, hsorted⟩
  rcases halone rfl with ⟨rfl, rfl⟩
  rcases hbelow rfl with ⟨rfl, rfl⟩
  -- Two names are shown, and there is one way to put them in order.
  let item (name : String) := itemAt (frameOf Disk.view [] mixedDesk) "/" name
  have hfound : found = [item "a", item "B"] := by
    have hsorted' : [item "a", item "B"].Pairwise (Before .name) :=
      List.pairwise_pair.2 (by unfold Before NameBefore; decide)
    refine @eq_of_before .name _ _ ?_ hsorted hsorted'
    refine (List.perm_ext_iff_of_nodup hnodup.of_map (by simp [item, itemAt])).2 fun i => ?_
    rw [hmem, List.mem_pair]
    constructor
    · rintro ⟨name, hname, hdot, rfl⟩
      simp only [List.mem_cons, List.not_mem_nil, or_false] at hname
      rcases hname with rfl | rfl | rfl
      · exact absurd hdot (by decide)
      · exact .inr rfl
      · exact .inl rfl
    · rintro (rfl | rfl)
      · exact ⟨"a", by decide, by decide, rfl⟩
      · exact ⟨"B", by decide, by decide, rfl⟩
  -- A row is no more than the name if neither the long form nor a mark is asked for.
  have hprinted : rows = ["a\n", "B\n"] := by
    have hnamed : List.Forall₂ (fun item row => row = item.name ++ "\n") found rows :=
      hrows.imp fun item row hrow => hrow.eq_name rfl rfl rfl
    rw [hfound] at hnamed
    cases hnamed with
    | cons hfirst hrest =>
        cases hrest with
        | cons hsecond hnone =>
            cases hnone
            rw [hfirst, hsecond]
            rfl
  rw [hprinted] at hrun
  exact hrun.trans rfl

end LineShell
