import Mathlib.Data.List.Fold
import Mathlib.Data.List.MinMax
import LineShell.Listing.Tree
import LineShell.Proofs.Resolving
import LineShell.Proofs.Thinning

/-!
# Directories — names in a directory, and the paths to them

The entries in a directory have one name more than the directory itself, and so have the paths to
them: wherever the path of a directory leads, through links or not, a name put behind it leads to
the entry of that name there.

* `Disk.IsTree` — a disk whose names can stand in paths;
* `Disk.mem_children_iff`, `Disk.nodup_children` — what stands in a directory;
* `Disk.walk_behind` — following a path to a directory, and going on from there;
* `Path.Spells` — a path and its names, and one name more;
* `Disk.Enters` — a path that leads to a directory, and the names in there.
-/

namespace LineShell

/-! ## Names -/

/-- A name that the system takes. -/
structure IsFileName (name : String) : Prop where
  proper : Path.IsProper name
  no_nul : '\x00' ∉ name.toList
  short : name.utf8ByteSize ≤ Disk.maxName

instance {name : String} : Decidable (IsFileName name) :=
  decidable_of_iff ((name ≠ "" ∧ name ≠ "." ∧ name ≠ ".." ∧ '/' ∉ name.toList) ∧
    '\x00' ∉ name.toList ∧
      name.utf8ByteSize ≤ Disk.maxName)
    ⟨fun ⟨⟨h₁, h₂, h₃, h₄⟩, h₅, h₆⟩ => ⟨⟨h₁, h₂, h₃, h₄⟩, h₅, h₆⟩,
      fun ⟨⟨h₁, h₂, h₃, h₄⟩, h₅, h₆⟩ => ⟨⟨h₁, h₂, h₃, h₄⟩, h₅, h₆⟩⟩

namespace Disk

def IsTree (d : Disk) : Prop :=
  ∀ route e, d.get? route = some e → ∀ name ∈ route, IsFileName name

section Children

variable {d : Disk} {route : Route} {path name : String} {names : List String} {e : Entry}

/-- The listed entries are those that can be looked up. -/
theorem mem_toList_iff : (route, e) ∈ d.toList ↔ d.get? route = some e := by
  rw [toList, get?, Std.TreeMap.mem_toList_iff_getElem?_eq_some]

theorem isTree_iff : d.IsTree ↔ ∀ item ∈ d.toList, ∀ name ∈ item.1, IsFileName name :=
  ⟨fun h item hitem => h item.1 item.2 (mem_toList_iff.1 hitem),
    fun h route e he => h (route, e) (mem_toList_iff.2 he)⟩

instance : Decidable d.IsTree :=
  decidable_of_iff _ isTree_iff.symm

/-- The name that a route has behind another, if it has just one. -/
def nameBelow? (route : Route) (item : Route × Entry) : Option (String × Entry) :=
  match item.1.reverse with
  | name :: parent => if parent.reverse = route then some (name, item.2) else none
  | [] => none

theorem nameBelow?_eq_some_iff {item : Route × Entry} :
    nameBelow? route item = some (name, e) ↔ item = (route ++ [name], e) := by
  rcases item with ⟨route', e'⟩
  constructor
  · intro h
    unfold nameBelow? at h
    split at h
    next last parent hreverse =>
      split at h
      next hparent =>
        cases h
        have hroute : route' = parent.reverse ++ [name] := by
          rw [← List.reverse_reverse route', hreverse, List.reverse_cons]
        rw [hroute, hparent]
      next => cases h
    next => cases h
  · intro h
    cases h
    simp [nameBelow?]

/-- The children of a directory are the entries one name below it. -/
theorem mem_children_iff : (name, e) ∈ d.children route ↔ d.get? (route ++ [name]) = some e := by
  change (name, e) ∈ d.toList.filterMap (nameBelow? route) ↔ _
  rw [List.mem_filterMap]
  constructor
  · rintro ⟨item, hitem, hname⟩
    rw [nameBelow?_eq_some_iff.1 hname] at hitem
    exact mem_toList_iff.1 hitem
  · intro h
    exact ⟨_, mem_toList_iff.2 h, nameBelow?_eq_some_iff.2 rfl⟩

/-- No name stands in a directory twice. -/
theorem nodup_children (d : Disk) (route : Route) : ((d.children route).map Prod.fst).Nodup := by
  change ((d.toList.filterMap (nameBelow? route)).map Prod.fst).Nodup
  rw [List.map_filterMap]
  have hroutes : d.toList.Pairwise fun a b => a.1 ≠ b.1 := by
    refine (Std.TreeMap.distinct_keys_toList (t := d.entries)).imp ?_
    intro a b hne heq
    exact hne (by rw [heq]; exact Std.ReflCmp.compare_self)
  refine List.Pairwise.filterMap _ ?_ hroutes
  intro a b hne name hname name' hname' heq
  rw [Option.map_eq_some_iff] at hname hname'
  rcases hname with ⟨⟨n, e⟩, ha, rfl⟩
  rcases hname' with ⟨⟨n', e'⟩, hb, rfl⟩
  rw [nameBelow?_eq_some_iff] at ha hb
  have hsame : n = n' := heq
  rw [ha, hb, hsame] at hne
  exact hne rfl

/-- The names in a directory are those of its children. -/
theorem names_of_find (h : d.find .entry path = .ok (route, e)) (hdir : e.isDirectory = true) :
    d.names path = .ok ((d.children route).map Prod.fst) := by
  rw [Disk.names, h]
  change (if e.isDirectory then _ else _) = _
  rw [if_pos hdir]
  rfl

/-- No name is listed twice. -/
theorem nodup_of_names (h : d.names path = .ok names) : names.Nodup := by
  rw [Disk.names] at h
  rcases hfind : d.find .entry path with fault | ⟨route, e⟩
  · rw [hfind] at h
    cases h
  · rw [hfind] at h
    change (if e.isDirectory then _ else _) = _ at h
    split at h
    next => cases h; exact nodup_children d route
    next => cases h

/-- No route is longer than the depth of the disk. -/
theorem length_le_depth (h : d.get? route = some e) : route.length ≤ d.depth := by
  have hmem : route.length ∈ d.toList.map fun item => item.1.length :=
    List.mem_map.2 ⟨_, mem_toList_iff.2 h, rfl⟩
  rw [depth, List.foldl_eq_foldr]
  exact List.le_max_of_le' 0 hmem le_rfl

end Children

/-! ## Following a path, and one name more -/

section Walks

variable {d : Disk} {links : Nat} {goal goal' : Goal} {here route : Route}
  {names more : List String} {name : String} {e e' : Entry} {node : Node}
    {stop' : Except Fault Place}

theorem not_isDirectory_of_node (hnode : e.node = node) (hne : node ≠ .directory) :
    ¬ e.isDirectory = true := by
  rw [Entry.isDirectory, hnode]
  cases node <;> simp at hne ⊢

/-- A walk comes to a directory through no other kind of node. -/
theorem not_goes_behind {rest : List String} {route' : Route} (hdir : e.isDirectory = true)
    (hnode : e'.node = node) (hne : node ≠ .directory) :
    (if rest.isEmpty then Except.ok (Place.entry route' e') else .error Fault.notDirectory) ≠
      .ok (.entry route e) := by
  intro h
  split at h
  · cases h
    exact not_isDirectory_of_node hnode hne hdir
  · cases h

/-- A walk that comes to a directory goes on from there. Where it ends, links are followed, unless
another name follows. -/
theorem walkWith_behind {onLink onLink' : Route → List String → Except Fault Place}
    (hgoal : goal ≠ .file) (hgoal' : goal' ≠ .file) (hmore : more ≠ [] ∨ goal' = .entry)
    (hlink : ∀ here names, onLink here names = .ok (.entry route e) →
      onLink' here (names ++ more) = stop') (hend : d.walkWith goal' onLink' route more = stop')
    (hdir : e.isDirectory = true) (h : d.walkWith goal onLink here names = .ok (.entry route e)) :
    d.walkWith goal' onLink' here (names ++ more) = stop' := by
  induction names generalizing here with
  | nil =>
      rw [walkWith] at h
      split at h
      next => cases h; exact hend
      next => cases h
  | cons name rest ih =>
      rw [walkWith] at h
      rw [List.cons_append, walkWith]
      split at h
      next hdot => rw [if_pos hdot]; exact ih h
      next hdot =>
      rw [if_neg hdot]
      split at h
      next hdots => rw [if_pos hdots]; exact ih h
      next hdots =>
      rw [if_neg hdots, if_neg (fun hfile => hgoal' hfile.1)]
      rw [if_neg (fun hfile => hgoal hfile.1)] at h
      split at h
      next => cases h
      next hshort =>
      rw [if_neg hshort]
      dsimp only at h ⊢
      -- Only a directory can be what the walk comes to, and on its way there are directories and
      -- links.
      cases hget : d.get? (here ++ [name]) with
      | none =>
          rw [hget] at h
          dsimp only at h
          split at h <;> cases h
      | some e₀ =>
          rw [hget] at h
          dsimp only at h ⊢
          cases hnode : e₀.node with
          | directory =>
              rw [hnode] at h
              exact ih h
          | link target =>
              rw [hnode] at h
              dsimp only at h ⊢
              split at h
              next =>
                cases h
                exact absurd hdir (not_isDirectory_of_node hnode (by simp))
              next =>
                have hfollow : ((rest ++ more).isEmpty && goal' == .name) = false := by
                  rcases hmore with hmore | rfl
                  · simp [hmore]
                  · simp
                rw [hfollow, ← List.append_assoc]
                exact hlink _ _ h
          | file content =>
              rw [hnode] at h
              exact absurd h (not_goes_behind hdir hnode (by simp))
          | device device =>
              rw [hnode] at h
              exact absurd h (not_goes_behind hdir hnode (by simp))

/-- Behind the path to a directory, a walk goes on from that directory. -/
theorem walk_behind (hgoal : goal ≠ .file) (hgoal' : goal' ≠ .file)
    (hmore : more ≠ [] ∨ goal' = .entry)
    (hend : ∀ onLink, d.walkWith goal' onLink route more = stop') (hdir : e.isDirectory = true)
    (h : d.walk goal links here names = .ok (.entry route e)) :
    d.walk goal' links here (names ++ more) = stop' := by
  induction links generalizing here names with
  | zero =>
      exact walkWith_behind hgoal hgoal' hmore (fun _ _ hlink => by cases hlink) (hend _) hdir h
  | succ links ih => exact walkWith_behind hgoal hgoal' hmore (fun _ _ => ih) (hend _) hdir h

/-- A walk along one name ends at the entry of that name, whatever it is. -/
theorem walkWith_name (onLink : Route → List String → Except Fault Place)
    (hname : IsFileName name) :
    d.walkWith .name onLink route [name] =
      match d.get? (route ++ [name]) with
      | some e => .ok (.entry (route ++ [name]) e)
      | none => .ok (.vacant (route ++ [name])) := by
  have hskip : ¬ (name = "." ∨ name = "") := by
    rintro (hdot | hempty)
    · exact hname.proper.ne_dot hdot
    · exact hname.proper.ne_empty hempty
  rw [walkWith, if_neg hskip, if_neg hname.proper.ne_dots, if_neg (by simp),
    if_neg (Nat.not_lt.2 hname.short)]
  dsimp only
  cases hget : d.get? (route ++ [name]) with
  | none => rfl
  | some e =>
      dsimp only
      cases hnode : e.node with
      | directory =>
          dsimp only
          rw [walkWith, hget]
      | link target => rfl
      | file content => rfl
      | device device => rfl

end Walks

end Disk

/-! ## Paths and the names in them -/

namespace Path

/-- A path that goes through some names and has no slash behind them. -/
structure Spells (path : String) (names : List String) : Prop where
  components : components path = names
  no_slash : path.toList.getLast? = some '/' → names = []

section Spells

variable {path name : String} {names : List String}

/-- What a path spells is where a walk along it stops. -/
theorem Spells.stops (h : Spells path names) : Disk.stops path = names := by
  rw [Disk.stops, h.components]
  split
  next hslash =>
    rw [Bool.and_eq_true, beq_iff_eq] at hslash
    rw [h.no_slash hslash.1] at hslash
    simp at hslash
  next => rfl

theorem getLast?_toList (h : IsProper name) : ∃ c, name.toList.getLast? = some c ∧ c ≠ '/' := by
  have hne : name.toList ≠ [] := by simpa using h.ne_empty
  refine ⟨_, List.getLast?_eq_some_getLast hne, ?_⟩
  rintro heq
  exact h.no_slash (heq ▸ List.getLast_mem hne)

theorem getLast?_intercalate (hnames : names ≠ []) (h : ∀ name ∈ names, IsProper name) :
    ∃ c, ("/".intercalate names).toList.getLast? = some c ∧ c ≠ '/' := by
  induction names with
  | nil => exact absurd rfl hnames
  | cons name rest ih =>
      cases rest with
      | nil => simpa using getLast?_toList (h name List.mem_cons_self)
      | cons next rest =>
          rcases ih (List.cons_ne_nil _ _) fun n hn => h n (List.mem_cons_of_mem _ hn)
            with ⟨c, hlast, hc⟩
          refine ⟨c, ?_, hc⟩
          rw [String.intercalate_cons_cons, toList_append_slash, List.getLast?_append,
            List.getLast?_cons, hlast]
          rfl

/-- An absolute path spells the names it was made of. -/
theorem spells_absolute (h : ∀ name ∈ names, IsProper name) : Spells (absolute names) names where
  components := components_absolute h
  no_slash hslash := by
    by_contra hnames
    rcases getLast?_intercalate hnames h with ⟨c, hlast, hc⟩
    rw [absolute, String.toList_append, List.getLast?_append, hlast] at hslash
    exact hc (Option.some.inj hslash)

/-- Names with slashes between them spell those names. -/
theorem spells_intercalate (hnames : names ≠ []) (h : ∀ name ∈ names, IsProper name) :
    Spells ("/".intercalate names) names where
  components := by
    have hroot : Path.components (absolute names) = Path.components ("/".intercalate names) :=
      components_append_slash "" ("/".intercalate names)
    rw [← hroot, components_absolute h]
  no_slash hslash := by
    rcases getLast?_intercalate hnames h with ⟨c, hlast, hc⟩
    rw [hlast] at hslash
    exact absurd (Option.some.inj hslash) hc

/-- A resolved path has no slash at its end that could be left out. -/
theorem exists_spells_resolve (cwd path : String) : ∃ names, Spells (resolve cwd path) names := by
  have hproper : ∀ more : List String, (∀ name ∈ more, name ≠ "" ∧ '/' ∉ name.toList) →
      ∀ name ∈ fold more, IsProper name := fun _ hmore _ hname => isProper_of_mem_fold hmore hname
  rw [resolve]
  split
  · exact ⟨_, spells_absolute (hproper _ fun _ => ne_empty_of_mem_components)⟩
  · have hnames : ∀ name ∈ components cwd ++ components path, name ≠ "" ∧ '/' ∉ name.toList := by
      intro name hname
      rcases List.mem_append.1 hname with hcwd | hpath
      · exact ne_empty_of_mem_components hcwd
      · exact ne_empty_of_mem_components hpath
    dsimp only
    split
    · exact ⟨_, spells_absolute (hproper _ hnames)⟩
    next hrelative =>
      rw [Bool.or_eq_true, not_or, List.isEmpty_iff] at hrelative
      exact ⟨_, spells_intercalate hrelative.2 (hproper _ hnames)⟩

theorem isAbsolute_of_isProper (h : IsProper name) : isAbsolute name = false := by
  rw [isAbsolute]
  cases hchars : name.toList with
  | nil => rfl
  | cons c rest =>
      have hslash := h.no_slash
      rw [hchars, List.mem_cons, not_or] at hslash
      simpa using Ne.symm hslash.1

/-- Behind nothing and behind a slash, a name needs no other slash. -/
theorem components_append_of_closed (hempty : path = "" ∨ path.toList.getLast? = some '/')
    (hname : IsProper name) : Path.components (path ++ name) = Path.components path ++ [name] := by
  have hcomponents : Path.components name = [name] :=
    components_of_name hname.ne_empty hname.no_slash
  rcases hempty with rfl | hslash
  · rw [String.empty_append, hcomponents]
    rfl
  · rcases List.getLast?_eq_some_iff.1 hslash with ⟨front, hfront⟩
    have hpath : path = String.ofList front ++ "/" := by
      rw [← String.toList_inj, hfront]
      simp
    have hnames : Path.components path = Path.components (String.ofList front) := by
      have hnothing := components_append_slash (String.ofList front) ""
      rwa [String.append_empty, ← hpath, show Path.components "" = [] from rfl, List.append_nil]
        at hnothing
    rw [hnames, hpath, components_append_slash, hcomponents]

/-- Behind a path, a name is one more. -/
theorem Spells.join (h : Spells path names) (hname : IsProper name) :
    Spells (join path name) (names ++ [name]) := by
  have hcomponents : Path.components name = [name] :=
    components_of_name hname.ne_empty hname.no_slash
  rcases getLast?_toList hname with ⟨c, hlast, hc⟩
  rw [Path.join, isAbsolute_of_isProper hname, if_neg Bool.false_ne_true]
  split
  next hclosed =>
    constructor
    · rw [components_append_of_closed (by simpa using hclosed) hname, h.components]
    · intro hslash
      rw [String.toList_append, List.getLast?_append, hlast] at hslash
      exact absurd (Option.some.inj hslash) hc
  next =>
    constructor
    · rw [components_append_slash, h.components, hcomponents]
    · intro hslash
      rw [toList_append_slash, List.getLast?_append, List.getLast?_cons, hlast] at hslash
      exact absurd (Option.some.inj hslash) hc

end Spells

end Path

/-! ## Names in a directory -/

namespace Disk

/-- A path leads to the directory at a route, and has no slash behind its last name. -/
structure Enters (d : Disk) (path : String) (route : Route) : Prop where
  spells : ∃ names, Path.Spells path names
  leads : ∃ e, d.find .entry path = .ok (route, e) ∧ e.isDirectory = true

section Enters

variable {d : Disk} {path name : String} {route : Route} {names : List String} {e : Entry}

/-- To find an entry is to walk to it, with the links that are allowed. -/
theorem walk_of_find {goal : Goal} (h : d.find goal path = .ok (route, e)) :
    d.walk goal maxLinks [] (stops path) = .ok (.entry route e) ∧ '\x00' ∉ path.toList := by
  rw [find_eq_ok_iff, locate] at h
  split at h
  · cases h
  next hnul =>
    split at h
    · cases h
    · exact ⟨h, by simpa using hnul⟩

/-- A path that names a directory leads to it. -/
theorem find_entry_of_find_name (h : d.find .name path = .ok (route, e))
    (hdir : e.isDirectory = true) :
    d.find .entry path = .ok (route, e) := by
  have hend : ∀ onLink, d.walkWith .entry onLink route [] = .ok (.entry route e) := by
    intro onLink
    rw [walkWith, get?_of_find h]
  have hwalk := walk_behind (by simp) (by simp) (.inr rfl) hend hdir (walk_of_find h).1
  rw [find_eq_ok_iff, locate] at h ⊢
  split at h
  · cases h
  next hnul =>
    split at h
    · cases h
    next hshort => rw [if_neg hnul, if_neg hshort, ← hwalk, List.append_nil]

/-- A path to a directory that was found enters it. -/
theorem enters_of_find (hspells : Path.Spells path names) (h : d.find .name path = .ok (route, e))
    (hdir : e.isDirectory = true) : d.Enters path route :=
  ⟨⟨names, hspells⟩, e, find_entry_of_find_name h hdir, hdir⟩

/-- A name behind the path to a directory stands for the entry of that name in there, unless that
makes the path too long. -/
theorem Enters.find_join (h : d.Enters path route) (hname : IsFileName name) :
    d.find .name (Path.join path name) =
      if maxPath < (Path.join path name).utf8ByteSize then .error .nameTooLong
      else
        match d.get? (route ++ [name]) with
        | some e => .ok (route ++ [name], e)
        | none => .error .notFound := by
  rcases h with ⟨⟨names, hspells⟩, e, hfind, hdir⟩
  rcases walk_of_find hfind with ⟨hwalk, hnul⟩
  rw [hspells.stops] at hwalk
  have hjoined : d.walk .name maxLinks [] (names ++ [name]) = _ :=
    walk_behind (by simp) (by simp) (.inl (by simp)) (fun onLink => walkWith_name onLink hname) hdir
      hwalk
  have hclean : (Path.join path name).toList.contains '\x00' = false := by
    have habsolute := Path.isAbsolute_of_isProper hname.proper
    have hslash : ¬ '\x00' = '/' := by decide
    rw [Path.join, habsolute]
    simp only [Bool.false_eq_true, if_false]
    split <;> simp [hnul, hname.no_nul]
  rw [find, locate, hclean, (hspells.join hname.proper).stops, hjoined]
  simp only [Bool.false_eq_true, if_false]
  split
  · rfl
  · cases d.get? (route ++ [name]) <;> rfl

/-- A name joined to a path that enters a directory gives the child of that name, unless the path
gets too long. -/
theorem Enters.linkStat_join_eq_ok_iff (h : d.Enters path route) (hname : IsFileName name) :
    d.linkStat (Path.join path name) = .ok e ↔
      d.get? (route ++ [name]) = some e ∧ (Path.join path name).utf8ByteSize ≤ maxPath := by
  rw [linkStat, h.find_join hname]
  split
  next hlong => simp [Except.map, Nat.not_le.2 hlong]
  next hshort => cases d.get? (route ++ [name]) <;> simp [Except.map, Nat.not_lt.1 hshort]

/-- A directory in a directory is one name further. -/
theorem Enters.join (h : d.Enters path route) (hname : IsFileName name)
    (hlook : d.linkStat (Path.join path name) = .ok e) (hdir : e.isDirectory = true) :
    d.Enters (Path.join path name) (route ++ [name]) := by
  rcases (h.linkStat_join_eq_ok_iff hname).1 hlook with ⟨hget, hshort⟩
  rcases h.spells with ⟨names, hspells⟩
  refine enters_of_find (hspells.join hname.proper) (e := e) ?_ hdir
  rw [h.find_join hname, if_neg (Nat.not_lt.2 hshort), hget]

/-- What is entered is a directory of the disk. -/
theorem Enters.get? (h : d.Enters path route) :
    ∃ e, d.get? route = some e ∧ e.isDirectory = true := by
  rcases h.leads with ⟨e, hfind, hdir⟩
  exact ⟨e, get?_of_find hfind, hdir⟩

/-- The names at a path that enters a directory are those of its children. -/
theorem Enters.names_eq (h : d.Enters path route) :
    d.names path = .ok ((d.children route).map Prod.fst) := by
  rcases h.leads with ⟨e, hfind, hdir⟩
  exact names_of_find hfind hdir

end Enters

end Disk
end LineShell
