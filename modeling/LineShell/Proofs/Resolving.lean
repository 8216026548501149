import LineShell.Proofs.Custody
import LineShell.Proofs.DotenvWriting

/-!
# Resolving — paths are folded as text

Seen from an absolute directory, every path becomes one absolute path of proper names. This file
says which: names are put behind those of the directory one after the other, and each of them is a
step of its own. So a path of two parts can be followed part by part, and `cd` can go to it in one
step or in two.

* `pieces`, `pieces_absolute`, `components_absolute` — cutting a path at its slashes, and putting it
  together;
* `fold_fold_append` — what was folded before may be folded again;
* `resolve_eq_absolute`, `resolve_step` — a resolved path by its names, and one name more;
* `resolve_append_slash` — part by part;
* `Desk.GoesTo`, `goesTo_append_slash_iff` — where `cd` goes;
* `paths_resolve_lexically` — all of it.
-/

namespace LineShell
namespace Path

/-! ## Components -/

/-- What stands between the slashes of a path, and behind the last one, empty pieces included. -/
def pieces (path : String) : List String :=
  ((Text.splitOn '/' path.toList).tail).map String.ofList

theorem toList_append_slash (a b : String) :
    (a ++ "/" ++ b).toList = a.toList ++ '/' :: b.toList := by
  simp

/-- Components of paths with a slash between them are those of both. -/
theorem components_append_slash (a b : String) :
    components (a ++ "/" ++ b) = components a ++ components b := by
  simp only [components, toList_append_slash, Text.splitOn_append_sep, List.filter_append,
    List.map_append]

/-- A name is its only component. -/
theorem components_of_name {name : String} (hempty : name ≠ "") (hslash : '/' ∉ name.toList) :
    components name = [name] := by
  have hne : name.toList.isEmpty = false := by
    simpa using hempty
  simp [components, Text.splitOn_of_not_mem hslash, hne]

/-- Names with slashes between them are parted again. -/
theorem splitOn_intercalate {names : List String} (hnames : names ≠ [])
    (h : ∀ name ∈ names, IsProper name) :
    Text.splitOn '/' ("/".intercalate names).toList = names.map String.toList := by
  induction names with
  | nil => exact absurd rfl hnames
  | cons name rest ih =>
      have hfirst := Text.splitOn_of_not_mem (h name List.mem_cons_self).no_slash
      -- A slash is written only where another name follows.
      cases rest with
      | nil => simpa using hfirst
      | cons next rest =>
          have hrest := ih (List.cons_ne_nil _ _) fun n hn => h n (List.mem_cons_of_mem _ hn)
          rw [String.intercalate_cons_cons, toList_append_slash, Text.splitOn_append_sep, hfirst,
            hrest]
          rfl

/-- A path that was put together from names is cut into these names again. -/
theorem pieces_absolute {names : List String} (hnames : names ≠ [])
    (h : ∀ name ∈ names, IsProper name) :
    pieces (absolute names) = names := by
  have hcut : Text.splitOn '/' (absolute names).toList = [] :: names.map String.toList := by
    have htext : (absolute names).toList = [] ++ '/' :: ("/".intercalate names).toList := by
      simp [absolute]
    rw [htext, Text.splitOn_append_sep, splitOn_intercalate hnames h]
    rfl
  rw [pieces, hcut, List.tail_cons, List.map_map]
  simp [Function.comp_def]

/-- An absolute path has the components it was made of. -/
theorem components_absolute {names : List String} (h : ∀ name ∈ names, IsProper name) :
    components (absolute names) = names := by
  have hroot : components (absolute names) = components ("/".intercalate names) :=
    components_append_slash "" ("/".intercalate names)
  by_cases hnames : names = []
  · subst hnames
    decide
  · -- None of the names is empty, so none is left out.
    have hkept : (names.map String.toList).filter (!·.isEmpty) = names.map String.toList := by
      refine List.filter_eq_self.2 ?_
      intro piece hpiece
      rcases List.mem_map.1 hpiece with ⟨name, hname, rfl⟩
      simpa using (h name hname).ne_empty
    rw [hroot, components, splitOn_intercalate hnames h, hkept, List.map_map]
    simp [Function.comp_def]

theorem isAbsolute_append_slash {a : String} (ha : a ≠ "") (b : String) :
    isAbsolute (a ++ "/" ++ b) = isAbsolute a := by
  rw [isAbsolute, isAbsolute, toList_append_slash]
  cases hchars : a.toList with
  | nil => exact absurd (String.toList_eq_nil_iff.1 hchars) ha
  | cons c rest => rfl

/-! ## Folding -/

/-- Proper names are all kept. -/
theorem foldl_push_of_proper {names : List String} (h : ∀ name ∈ names, IsProper name)
    (acc : List String) :
    names.foldl push acc = names.reverse ++ acc := by
  induction names generalizing acc with
  | nil => rfl
  | cons name rest ih =>
      have hname := h name List.mem_cons_self
      have hpush : push acc name = name :: acc := by
        rw [push, if_neg hname.ne_dot, if_neg hname.ne_dots]
      rw [List.foldl_cons, hpush, ih fun n hn => h n (List.mem_cons_of_mem _ hn), List.reverse_cons,
        List.append_assoc, List.singleton_append]

/-- Names that are folded already, and then others. -/
theorem fold_append_of_proper {names : List String} (h : ∀ name ∈ names, IsProper name)
    (more : List String) :
    fold (names ++ more) = (more.foldl push names.reverse).reverse := by
  rw [fold, List.foldl_append, foldl_push_of_proper h, List.append_nil]

/-- What is folded may be folded again with what follows. -/
theorem fold_fold_append {names : List String} (h : ∀ name ∈ names, name ≠ "" ∧ '/' ∉ name.toList)
    (more : List String) : fold (fold names ++ more) = fold (names ++ more) := by
  have hproper : ∀ name ∈ fold names, IsProper name := by
    intro name hname
    exact isProper_of_mem_fold h hname
  calc fold (fold names ++ more)
      = (more.foldl push (fold names).reverse).reverse := fold_append_of_proper hproper more
    _ = (more.foldl push (names.foldl push [])).reverse := by rw [fold, List.reverse_reverse]
    _ = fold (names ++ more) := by rw [fold, List.foldl_append]

/-! ## Resolving -/

/-- The names that `path` is put behind when it is seen from `cwd`. -/
def ahead (cwd path : String) : List String :=
  if isAbsolute path then [] else components cwd

def unfolded (cwd path : String) : List String :=
  ahead cwd path ++ components path

theorem ne_empty_of_mem_unfolded {cwd path name : String} (h : name ∈ unfolded cwd path) :
    name ≠ "" ∧ '/' ∉ name.toList := by
  rcases List.mem_append.1 h with hahead | hpath
  · unfold ahead at hahead
    split at hahead
    · cases hahead
    · exact ne_empty_of_mem_components hahead
  · exact ne_empty_of_mem_components hpath

/-- From an absolute directory, resolving gives an absolute path. -/
theorem resolve_eq_absolute {cwd : String} (hcwd : isAbsolute cwd = true) (path : String) :
    resolve cwd path = absolute (fold (unfolded cwd path)) := by
  rw [resolve, unfolded, ahead]
  split
  · rfl
  · simp [hcwd]

/-- A resolved path has the folded components. -/
theorem components_resolve {cwd : String} (hcwd : isAbsolute cwd = true) (path : String) :
    components (resolve cwd path) = fold (unfolded cwd path) := by
  rw [resolve_eq_absolute hcwd]
  apply components_absolute
  intro name hname
  exact isProper_of_mem_fold (fun _ => ne_empty_of_mem_unfolded) hname

/-- A settled path is resolved to itself. -/
theorem Settled.resolve_eq {path : String} (h : Settled path) (cwd : String) :
    resolve cwd path = path := by
  rcases h with ⟨names, rfl, hproper⟩
  have hfold : fold names = names := by
    simpa using fold_append_of_proper hproper []
  rw [resolve, if_pos (isAbsolute_absolute names), components_absolute hproper, hfold]

/-- Apart from the root, a settled path has a proper name behind each slash. -/
theorem Settled.pieces {path : String} (h : Settled path) (hroot : path ≠ "/") :
    ∀ piece ∈ Path.pieces path, IsProper piece := by
  rcases h with ⟨names, rfl, hproper⟩
  have hnames : names ≠ [] := by
    rintro rfl
    exact hroot rfl
  rw [pieces_absolute hnames hproper]
  exact hproper

/-- One name more is one step from the directory. -/
theorem resolve_step {names : List String} (h : ∀ name ∈ names, IsProper name) {step : String}
    (hempty : step ≠ "") (hslash : '/' ∉ step.toList) :
    resolve (absolute names) step = absolute (push names.reverse step).reverse := by
  have hrelative : isAbsolute step = false := by
    rw [isAbsolute]
    cases hchars : step.toList with
    | nil => rfl
    | cons c rest =>
        rw [hchars, List.mem_cons, not_or] at hslash
        simpa using Ne.symm hslash.1
  have hnames : unfolded (absolute names) step = names ++ [step] := by
    rw [unfolded, ahead, hrelative, components_absolute h, components_of_name hempty hslash]
    rfl
  rw [resolve_eq_absolute (isAbsolute_absolute names), hnames, fold_append_of_proper h]
  rfl

/-- A path resolves step by step, unless its second part is absolute. -/
theorem resolve_append_slash {cwd a b : String} (hcwd : isAbsolute cwd = true) (ha : a ≠ "")
    (hb : isAbsolute b = false) : resolve cwd (a ++ "/" ++ b) = resolve (resolve cwd a) b := by
  have hfrom : isAbsolute (resolve cwd a) = true := (settled_resolve hcwd a).isAbsolute
  have hwhole : unfolded cwd (a ++ "/" ++ b) = unfolded cwd a ++ components b := by
    rw [unfolded, unfolded, ahead, isAbsolute_append_slash ha, components_append_slash,
      ← List.append_assoc]
    rfl
  have hsecond : unfolded (resolve cwd a) b = fold (unfolded cwd a) ++ components b := by
    rw [unfolded, ahead, hb, ← components_resolve hcwd]
    rfl
  calc resolve cwd (a ++ "/" ++ b)
      = absolute (fold (unfolded cwd a ++ components b)) := by rw [resolve_eq_absolute hcwd, hwhole]
    _ = absolute (fold (fold (unfolded cwd a) ++ components b)) := by
          rw [fold_fold_append fun _ => ne_empty_of_mem_unfolded]
    _ = resolve (resolve cwd a) b := by rw [resolve_eq_absolute hfrom, hsecond]

/-! ## Changing the directory -/

/-- A leading tilde stands in the first part of a path. -/
theorem expandHome_append_slash (home : Option String) {a : String} (ha : a ≠ "") (b : String) :
    expandHome home (a ++ "/" ++ b) = expandHome home a ++ "/" ++ b := by
  unfold expandHome
  rw [toList_append_slash]
  cases home with
  | none => simp
  | some home =>
      cases hchars : a.toList with
      | nil => exact absurd (String.toList_eq_nil_iff.1 hchars) ha
      | cons c rest =>
          by_cases hc : c = '~'
          · subst hc
            cases rest with
            | nil => simp
            | cons d rest =>
                by_cases hd : d = '/'
                · subst hd
                  simp [String.append_assoc]
                · simp [hd]
          · simp [hc]

theorem expandHome_ne_empty {home : Option String} (hhome : home ≠ some "") {a : String}
    (ha : a ≠ "") :
    expandHome home a ≠ "" := by
  unfold expandHome
  split
  · next dir _ =>
    rintro rfl
    exact hhome rfl
  · simp
  · exact ha

end Path

/-- `cd` with the operand succeeds, and then the working directory is `path`. -/
def Desk.GoesTo (d : Desk) (operand path : String) : Prop :=
  ∃ d', runOn (Builtin.cd [operand] none) d = (.ok .success, d') ∧ d'.scene.cwd = path

section Directory

variable {d d' : Desk} {operand path : String}

/-- A desk whose working directory was changed to `path`. -/
def Desk.moved (d : Desk) (path : String) : Desk :=
  { d with scene := { d.scene.noting (.changingDirectory d.scene.cwd path) with cwd := path } }

/-- A change of directory succeeds only at directories, and then changes only the directory. -/
theorem runOn_cd_eq_success_iff :
    runOn (Builtin.cd [operand] none) d = (.ok .success, d') ↔
      d.scene.host.disk.isDirectory (d.scene.pathOf operand) = true ∧
        d' = d.moved (d.scene.pathOf operand) := by
  have hscene : runOn Action.scene d = (.ok d.scene, d) := rfl
  have hcd : runOn (Builtin.cd [operand] none) d =
      runOn (Builtin.cdTo operand (d.scene.pathOf operand)) d := by
    rw [Builtin.cd, runOn_bind_of_ok hscene]
    rfl
  rw [hcd, Builtin.cdTo, runOn_bind_of_ok hscene, Disk.isDirectory]
  -- Whatever the disk says but that a directory is there, it ends with a complaint.
  cases d.scene.host.disk.stat (d.scene.pathOf operand) with
  | error fault =>
      refine ⟨fun h => ?_, fun h => absurd h.1 Bool.false_ne_true⟩
      exact absurd (congrArg Prod.fst h) (complain_ne_success _ d)
  | ok e =>
      dsimp only
      cases e.isDirectory with
      | false =>
          refine ⟨fun h => ?_, fun h => absurd h.1 Bool.false_ne_true⟩
          exact absurd (congrArg Prod.fst h) (complain_ne_success _ d)
      | true =>
          have hmoved : runOn (if true = true then (do
              Action.note (.changingDirectory d.scene.cwd (d.scene.pathOf operand))
              modify fun d' => { d' with scene := { d'.scene with cwd := d.scene.pathOf operand } }
              return Completion.success)
            else (do
              Action.complain (Builtin.cdMessage operand .notDirectory)
              return Completion.failure)) d =
                (.ok .success, d.moved (d.scene.pathOf operand)) := rfl
          rw [hmoved]
          simp [eq_comm]

/-- To go somewhere is to resolve the operand to a directory. -/
theorem goesTo_iff :
    d.GoesTo operand path ↔ path = d.scene.pathOf operand ∧
    d.scene.host.disk.isDirectory path = true := by
  constructor
  · rintro ⟨d', hcd, rfl⟩
    rcases runOn_cd_eq_success_iff.1 hcd with ⟨hdir, rfl⟩
    exact ⟨rfl, hdir⟩
  · rintro ⟨rfl, hdir⟩
    exact ⟨_, runOn_cd_eq_success_iff.2 ⟨hdir, rfl⟩, rfl⟩

/-- Once `cd a` has succeeded, `cd b` goes where `cd a/b` goes from the start. -/
theorem goesTo_append_slash_iff {a b : String} (hcwd : Path.isAbsolute d.scene.cwd = true)
    (hhome : d.scene.home ≠ some "") (ha : a ≠ "") (hb : Path.isAbsolute b = false)
    (htilde : Path.expandHome d.scene.home b = b)
    (hcd : runOn (Builtin.cd [a] none) d = (.ok .success, d')) :
    d.GoesTo (a ++ "/" ++ b) path ↔ d'.GoesTo b path := by
  rcases runOn_cd_eq_success_iff.1 hcd with ⟨-, rfl⟩
  have hpath : d.scene.pathOf (a ++ "/" ++ b) = (d.moved (d.scene.pathOf a)).scene.pathOf b := by
    calc d.scene.pathOf (a ++ "/" ++ b)
        = Path.resolve d.scene.cwd (Path.expandHome d.scene.home a ++ "/" ++ b) := by
            rw [Scene.pathOf, Path.expandHome_append_slash _ ha]
      _ = Path.resolve (d.scene.pathOf a) b :=
            Path.resolve_append_slash hcwd (Path.expandHome_ne_empty hhome ha) hb
      _ = Path.resolve (d.scene.pathOf a) (Path.expandHome d.scene.home b) := by rw [htilde]
  rw [goesTo_iff, goesTo_iff, hpath]
  rfl

end Directory

open LineShell.Path in
/-- Seen from an absolute directory, a path is absolute, and unless it is the root it has a proper
name behind each slash: not `.`, not `..`, and never none. An absolute path looks the same from
everywhere, and a resolved one is what it was. From a directory of given names, `.` stays, `..`
drops the last name, which at the root is none, and any other name is put behind. A path of two
parts is followed part by part. So once `cd a` has succeeded, `cd b` goes where `cd a/b` would have
gone, provided that `b` is no tilde, which only counts at the start of an operand. -/
theorem paths_resolve_lexically (cwd : String) (hcwd : isAbsolute cwd = true) (path : String) :
    isAbsolute (resolve cwd path) = true ∧
    (resolve cwd path = "/" ∨ ∀ piece ∈ pieces (resolve cwd path), IsProper piece) ∧
    (isAbsolute path = true → ∀ c, resolve c path = resolve cwd path) ∧
    (∀ c, resolve c (resolve cwd path) = resolve cwd path) ∧
    resolve "/" ".." = "/" ∧
    (∀ names, (∀ name ∈ names, IsProper name) →
      resolve (absolute names) "." = absolute names ∧
      resolve (absolute names) ".." = absolute names.dropLast ∧
      ∀ name, IsProper name → resolve (absolute names) name = absolute (names ++ [name])) ∧
    (∀ a b, a ≠ "" → isAbsolute b = false →
      resolve cwd (a ++ "/" ++ b) = resolve (resolve cwd a) b) ∧
    ∀ (d d' : Desk) (a b goal : String), isAbsolute d.scene.cwd = true → d.scene.home ≠ some "" →
      a ≠ "" →
      isAbsolute b = false → expandHome d.scene.home b = b →
      runOn (Builtin.cd [a] none) d = (.ok .success, d') →
      (d.GoesTo (a ++ "/" ++ b) goal ↔ d'.GoesTo b goal) := by
  have hsettled := settled_resolve hcwd path
  refine ⟨hsettled.isAbsolute, ?_, ?_, hsettled.resolve_eq, by decide, ?_, ?_, ?_⟩
  · by_cases hroot : resolve cwd path = "/"
    · exact .inl hroot
    · exact .inr (hsettled.pieces hroot)
  · intro habsolute c
    rw [resolve, resolve, if_pos habsolute, if_pos habsolute]
  · intro names hnames
    refine ⟨?_, ?_, ?_⟩
    · rw [resolve_step hnames (by decide) (by decide), push, if_pos rfl, List.reverse_reverse]
    · rw [resolve_step hnames (by decide) (by decide), push, if_neg (by decide), if_pos rfl,
        List.drop_one, List.tail_reverse, List.reverse_reverse]
    · intro name hname
      rw [resolve_step hnames hname.ne_empty hname.no_slash, push, if_neg hname.ne_dot,
        if_neg hname.ne_dots, List.reverse_cons, List.reverse_reverse]
  · intro a b ha hb
    exact resolve_append_slash hcwd ha hb
  · intro d d' a b goal hcwd' hhome ha hb htilde hcd
    exact goesTo_append_slash_iff hcwd' hhome ha hb htilde hcd

/-- From `/a/b`, a path with all kinds of slashes and dots. At a desk in the root, `cd ./..` goes
where `cd .` and then `cd ..` go. -/
theorem dots_lead_back_to_root :
    Path.resolve "/a/b" ("..//./.." ++ "/" ++ "../c/") =
      Path.resolve (Path.resolve "/a/b" "..//./..") "../c/" ∧
    Path.resolve "/a/b" "..//./.." = "/" ∧
    ∃ d d' : Desk, runOn (Builtin.cd ["."] none) d = (.ok .success, d') ∧ d'.GoesTo ".." "/" ∧
      d.GoesTo ("." ++ "/" ++ "..") "/" := by
  have hlaws := paths_resolve_lexically "/a/b" (by decide) "..//./.."
  let d : Desk := bareSession.desk .memory .memory
  have hdir : d.scene.host.disk.isDirectory "/" = true := by rfl
  have hcd : runOn (Builtin.cd ["."] none) d = (.ok .success, d.moved "/") := by
    have hstay : d.scene.pathOf "." = "/" := by decide
    rw [runOn_cd_eq_success_iff, hstay]
    exact ⟨hdir, rfl⟩
  have hback : (d.moved "/").GoesTo ".." "/" := by
    have hroot : (d.moved "/").scene.pathOf ".." = "/" := by decide
    rw [goesTo_iff, hroot]
    exact ⟨rfl, hdir⟩
  refine ⟨?_, by decide, d, _, hcd, hback, ?_⟩
  · exact hlaws.2.2.2.2.2.2.1 "..//./.." "../c/" (by decide) (by decide)
  · exact (hlaws.2.2.2.2.2.2.2 d _ "." ".." "/" (by decide) (by decide) (by decide) (by decide)
      (by decide) hcd).2 hback

end LineShell
