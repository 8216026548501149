import LineShell.Proofs.Targets

/-!
# Thinning — paths on a disk that entries have been taken from

When entries are taken away, the paths that are left lead to where they led before: a path may lead
nowhere then, but it does not come to lead to something else. What a path leads to does not depend
on the content of files either. So a removal in the middle of others is seen from the disk that was
there before them.

* `Disk.Thinned` — all that is there was there before, with another content at most;
* `Disk.find_thinned`, `Disk.exists_find_of_thinned` — a path leads to where it led, or nowhere;
* `Disk.Cleared` — what stood at certain routes and below may be gone, certain files may have been
  written to, and that is all;
* `Disk.remove_cases`, `Disk.cleared_without`, `Disk.cleared_clear` — what removing does, and what
  is left;
* `Disk.cleared_write` — writing to an open file.
-/

namespace LineShell

/-- Nodes that are the same when emptied are the same, or both are files. -/
theorem Node.eq_or_files {node node' : Node} (h : node'.emptied = node.emptied) :
    node' = node ∨ ∃ content content', node' = .file content' ∧ node = .file content := by
  cases node <;> cases node' <;> simp_all [Node.emptied]

namespace Disk

/-! ## Paths -/

/-- Every entry was there before, and at most the content of a file is another one. -/
def Thinned (d d' : Disk) : Prop :=
  ∀ route e', d'.get? route = some e' → ∃ e, d.get? route = some e ∧
    e'.node.emptied = e.node.emptied

section Thinned

variable {d d' d₁ d₂ : Disk} {goal : Goal} {route : Route} {path : String}

theorem Thinned.refl (d : Disk) : d.Thinned d :=
  fun _ e he => ⟨e, he, rfl⟩

theorem Thinned.trans (h₁ : d.Thinned d₁) (h₂ : d₁.Thinned d₂) : d.Thinned d₂ := by
  intro route e₂ he₂
  rcases h₂ route e₂ he₂ with ⟨e₁, he₁, hsame₂⟩
  rcases h₁ route e₁ he₁ with ⟨e, he, hsame₁⟩
  exact ⟨e, he, hsame₂.trans hsame₁⟩

/-- What was missing stays missing. -/
theorem Thinned.missing (h : d.Thinned d') (hmissing : d.get? route = none) :
    d'.get? route = none := by
  cases hget : d'.get? route with
  | none => rfl
  | some e' =>
      rcases h route e' hget with ⟨e, he, -⟩
      rw [hmissing] at he
      cases he

/-- What a walk comes to, apart from the content of a file. At a free name there is nothing. -/
def reached : Except Fault Place → Except Fault (Route × Node)
  | .ok (.entry route e) => .ok (route, e.node.emptied)
  | .ok (.vacant _) => .error .notFound
  | .error fault => .error fault

/-- A walk comes to nothing, or to what another one comes to. -/
def Shortens (r r' : Except Fault Place) : Prop :=
  reached r' = .error .notFound ∨ reached r' = reached r

/-- On a thinned disk a walk ends as it did, or finds nothing. -/
theorem walkWith_thinned (h : d.Thinned d')
    {onLink onLink' : Route → List String → Except Fault Place}
    (hlink : ∀ here names, Shortens (onLink here names) (onLink' here names)) (here : Route)
    (names : List String) :
    Shortens (d.walkWith goal onLink here names) (d'.walkWith goal onLink' here names) := by
  induction names generalizing here with
  | nil =>
      rw [walkWith, walkWith]
      cases hget : d'.get? here with
      | none => exact .inl rfl
      | some e' =>
          rcases h here e' hget with ⟨e, he, hsame⟩
          rw [he]
          exact .inr (by rw [reached, reached, hsame])
  | cons name rest ih =>
      rw [walkWith, walkWith]
      split
      · exact ih here
      split
      · exact ih here.dropLast
      split
      · exact .inr rfl
      split
      · exact .inr rfl
      dsimp only
      cases hget : d'.get? (here ++ [name]) with
      | none =>
          -- Whether the name is the last one does not matter, for there is nothing behind it.
          refine .inl ?_
          dsimp only
          split <;> rfl
      | some e' =>
          rcases h _ e' hget with ⟨e, he, hsame⟩
          rw [he]
          have hentry : Shortens (.ok (.entry (here ++ [name]) e))
            (.ok (.entry (here ++ [name]) e')) :=
            .inr (by rw [reached, reached, hsame])
          dsimp only
          rcases Node.eq_or_files hsame with hnode | ⟨content, content', hfile', hfile⟩
          · rw [hnode]
            cases e.node with
            | directory => exact ih _
            | link target =>
                dsimp only
                split
                · exact hentry
                · exact hlink _ _
            | file content =>
                dsimp only
                split
                · exact hentry
                · exact .inr rfl
            | device device =>
                dsimp only
                split
                · exact hentry
                · exact .inr rfl
          · rw [hfile, hfile']
            dsimp only
            split
            · exact hentry
            · exact .inr rfl

/-- However many links are allowed, a walk ends as it did, or finds nothing. -/
theorem walk_thinned (h : d.Thinned d') (links : Nat) (here : Route) (names : List String) :
    Shortens (d.walk goal links here names) (d'.walk goal links here names) := by
  induction links generalizing here names with
  | zero => exact walkWith_thinned h (fun _ _ => .inr rfl) here names
  | succ links ih => exact walkWith_thinned h ih here names

/-- A path leads where it did, or to nothing. -/
theorem locate_thinned (h : d.Thinned d') (goal : Goal) (path : String) :
    Shortens (d.locate goal path) (d'.locate goal path) := by
  unfold locate
  split
  · exact .inr rfl
  split
  · exact .inr rfl
  · exact walk_thinned h _ _ _

/-- To find an entry is to locate it. -/
theorem find_eq_ok_iff {e : Entry} :
    d.find goal path = .ok (route, e) ↔ d.locate goal path = .ok (.entry route e) := by
  unfold find
  rcases d.locate goal path with fault | (⟨route', e'⟩ | route') <;>
    simp [bind, Except.bind, pure, Except.pure, throw, throwThe, MonadExceptOf.throw]

/-- Nothing is found where a path fails or leads to a vacant place. -/
theorem find_eq_error_iff {fault : Fault} :
    d.find goal path = .error fault ↔ reached (d.locate goal path) = .error fault := by
  unfold find
  rcases d.locate goal path with fault' | (⟨route', e'⟩ | route') <;>
    simp [reached, bind, Except.bind, pure, Except.pure, throw, throwThe, MonadExceptOf.throw]

theorem get?_of_find {e : Entry} (h : d.find goal path = .ok (route, e)) : d.get? route = some e :=
  locate_stands (find_eq_ok_iff.1 h)

/-- Where a path leads after entries have been taken away, it led before. -/
theorem exists_find_of_thinned {e' : Entry} (h : d.Thinned d')
    (hfind : d'.find goal path = .ok (route, e')) :
    ∃ e, d.find goal path = .ok (route, e) ∧ e'.node.emptied = e.node.emptied := by
  rw [find_eq_ok_iff] at hfind
  rcases locate_thinned h goal path with hnone | hsame
  · rw [hfind] at hnone
    cases hnone
  · rw [hfind] at hsame
    rcases hplace : d.locate goal path with fault | (⟨route', e⟩ | route') <;> rw [hplace] at hsame
    · cases hsame
    · simp only [reached, Except.ok.injEq, Prod.mk.injEq] at hsame
      rcases hsame with ⟨rfl, hnode⟩
      exact ⟨e, find_eq_ok_iff.2 hplace, hnode⟩
    · cases hsame

/-- A path that leads nowhere still leads nowhere. -/
theorem find_thinned (h : d.Thinned d') (hfind : d.find goal path = .error .notFound) :
    d'.find goal path = .error .notFound := by
  rw [find_eq_error_iff] at hfind ⊢
  rcases locate_thinned h goal path with hnone | hsame
  · exact hnone
  · rw [hsame, hfind]

/-- A path leads nowhere once the entry that it led to is gone. -/
theorem find_of_missing {e : Entry} (h : d.Thinned d') (hfind : d.find goal path = .ok (route, e))
    (hmissing : d'.get? route = none) : d'.find goal path = .error .notFound := by
  rw [find_eq_ok_iff] at hfind
  rw [find_eq_error_iff]
  rcases locate_thinned h goal path with hnone | hsame
  · exact hnone
  · rw [hfind] at hsame
    rcases hplace : d'.locate goal path with fault | (⟨route', e'⟩ | route') <;>
      rw [hplace] at hsame
    · cases hsame
    · -- What stands there would stand at the route that nothing stands at.
      have hstands := locate_stands hplace
      simp only [reached, Except.ok.injEq, Prod.mk.injEq] at hsame
      rw [Place.Stands, hsame.1, hmissing] at hstands
      cases hstands
    · cases hsame

end Thinned

/-! ## What is left of a disk -/

/-- What stood at the routes `named` and below may be gone, the files at the routes `written` may
have been written to, and that is all. -/
structure Cleared (named written : Route → Prop) (d d' : Disk) : Prop where
  thinned : d.Thinned d'
  /-- All that is not at or below a route of the first kind is there as before. -/
  bodies : ∀ route, ¬ written route → (∀ r, named r → ¬ r <+: route) →
    d'.body? route = d.body? route
  /-- Times change for the directories that an entry was taken from. -/
  times : ∀ route, ¬ written route → (∀ r, named r → ¬ r <+: route ∧ r.dropLast ≠ route) →
    d'.get? route = d.get? route

/-- Every directory is there as before. -/
def KeepsDirectories (d d' : Disk) : Prop :=
  ∀ route e, d.get? route = some e → e.isDirectory = true → d'.body? route = some e.body

section Cleared

variable {d d' d₁ d₂ : Disk} {named named₁ named₂ written written₁ written₂ : Route → Prop}
  {route : Route} {path : String}
  {recursive : Bool}

theorem Cleared.refl (named written : Route → Prop) (d : Disk) : d.Cleared named written d :=
  ⟨.refl d, fun _ _ _ => rfl, fun _ _ _ => rfl⟩

theorem Cleared.trans (h₁ : Cleared named written d d₁) (h₂ : Cleared named written d₁ d₂) :
    Cleared named written d d₂ where
  thinned := h₁.thinned.trans h₂.thinned
  bodies route hwritten hnamed :=
    (h₂.bodies route hwritten hnamed).trans (h₁.bodies route hwritten hnamed)
  times route hwritten hnamed :=
    (h₂.times route hwritten hnamed).trans (h₁.times route hwritten hnamed)

theorem Cleared.mono (h : Cleared named₁ written₁ d d') (hnamed : ∀ r, named₁ r → named₂ r)
    (hwritten : ∀ r, written₁ r → written₂ r) : Cleared named₂ written₂ d d' where
  thinned := h.thinned
  bodies route hdry hfree := h.bodies route (mt (hwritten route) hdry) fun r hr =>
    hfree r (hnamed r hr)
  times route hdry hfree := h.times route (mt (hwritten route) hdry) fun r hr =>
    hfree r (hnamed r hr)

theorem KeepsDirectories.refl (d : Disk) : d.KeepsDirectories d :=
  fun route e he _ => by rw [body?, he, Option.map_some]

theorem KeepsDirectories.trans (h₁ : d.KeepsDirectories d₁) (h₂ : d₁.KeepsDirectories d₂) :
    d.KeepsDirectories d₂ := by
  intro route e he hdir
  have hbody := h₁ route e he hdir
  rw [body?, Option.map_eq_some_iff] at hbody
  rcases hbody with ⟨e₁, he₁, hsame⟩
  have hnode : e₁.node = e.node := congrArg Prod.fst hsame
  rw [h₂ route e₁ he₁ (by rw [Entry.isDirectory, hnode]; exact hdir), hsame]

/-! ### Removing -/

theorem get?_erase (d : Disk) (route route' : Route) :
    (d.erase route).get? route' = if route = route' then none else d.get? route' := by
  simp [get?, erase, Std.TreeMap.getElem?_erase, Std.LawfulEqCmp.compare_eq_iff_eq]

/-- Erasing a directory takes what is below it, and itself. -/
theorem get?_eraseBelow (d : Disk) (route route' : Route) :
    (d.eraseBelow route).get? route' = if route <+: route' then none else d.get? route' := by
  rw [get?, get?, eraseBelow, Std.TreeMap.getElem?_filter']
  by_cases h : route <+: route'
  · rw [List.isPrefixOf_iff_prefix.2 h, if_pos h]
    cases d.entries[route']? <;> rfl
  · rw [Bool.eq_false_iff.2 (mt List.isPrefixOf_iff_prefix.1 h), if_neg h]
    cases d.entries[route']? <;> rfl

/-- A disk without the entry at a route; a directory goes with all below it. -/
def without (d : Disk) (route : Route) (e : Entry) : Disk :=
  (if e.isDirectory then d.eraseBelow route else d.erase route).stamp route.dropLast

/-- Whether an entry at a route is the one that is taken away, or goes with it. -/
def GoesWith (route : Route) (e : Entry) (route' : Route) : Prop :=
  route = route' ∨ e.isDirectory = true ∧ route <+: route'

instance (route : Route) (e : Entry) (route' : Route) : Decidable (GoesWith route e route') :=
  inferInstanceAs (Decidable (_ ∨ _))

/-- Only what is below goes with an entry. -/
theorem GoesWith.below {e : Entry} {route' : Route} (h : GoesWith route e route') :
    route <+: route' := by
  rcases h with rfl | ⟨-, hbelow⟩
  · exact List.prefix_rfl
  · exact hbelow

/-- Away from the parent, what goes with the entry is gone and all else is the same. -/
theorem get?_without_of_ne {e : Entry} {route' : Route} (hne : route.dropLast ≠ route') :
    (d.without route e).get? route' = if GoesWith route e route' then none else d.get? route' := by
  rw [without, get?_stamp_of_ne hne]
  cases hdir : e.isDirectory with
  | false => simp [GoesWith, get?_erase, hdir]
  | true =>
      have hself : route = route' → route <+: route' := fun heq => heq ▸ List.prefix_rfl
      simp only [GoesWith, get?_eraseBelow, hdir, if_true, true_and, or_iff_right_of_imp hself]

/-- At the parent only the time changes. -/
theorem body?_without (d : Disk) (route : Route) (e : Entry) (route' : Route) :
    (d.without route e).body? route' = if GoesWith route e route' then none
    else d.body? route' := by
  rw [without, body?_stamp]
  cases hdir : e.isDirectory with
  | false =>
      simp only [body?, get?_erase, GoesWith, hdir, Bool.false_eq_true, if_false, false_and,
        or_false]
      split <;> rfl
  | true =>
      have hself : route = route' → route <+: route' := fun heq => heq ▸ List.prefix_rfl
      simp only [body?, get?_eraseBelow, GoesWith, hdir, if_true, true_and,
        or_iff_right_of_imp hself]
      split <;> rfl

theorem get?_without_self (d : Disk) (route : Route) (e : Entry) :
    (d.without route e).get? route = none := by
  rw [← body?_eq_none, body?_without, if_pos (.inl rfl)]

/-- Below the root of a disk that is cleared there is nothing. -/
theorem body?_clear (d : Disk) (route : Route) :
    d.clear.body? route = if route = [] then d.body? [] else none := by
  rw [clear]
  split
  next hbare =>
    split
    next hroot => rw [hroot]
    next hroot =>
      rw [body?_eq_none]
      cases hget : d.get? route with
      | none => rfl
      | some e =>
          -- A disk that is bare has no entry but the root.
          have hmem : (route, e) ∈ d.toList := Std.TreeMap.mem_toList_iff_getElem?_eq_some.2 hget
          exact absurd (List.isEmpty_iff.1 (List.all_eq_true.1 hbare _ hmem)) hroot
  next =>
    rw [body?_stamp, body?, get?, Std.TreeMap.getElem?_filter']
    split
    next hroot =>
      subst hroot
      rw [body?, get?]
      cases d.entries[([] : Route)]? <;> rfl
    next hroot =>
      rw [List.isEmpty_eq_false_iff.2 hroot]
      cases d.entries[route]? <;> rfl

/-- On a cleared disk there is only the root. -/
theorem get?_clear_of_ne {route : Route} (h : route ≠ []) (d : Disk) :
    d.clear.get? route = none := by
  rw [← body?_eq_none, body?_clear, if_neg h]

/-- Clearing changes a disk unless there is only the root. -/
theorem clear_eq_self_iff (d : Disk) : d.clear = d ↔ ∀ route, route ≠ [] → d.get? route = none := by
  constructor
  · intro h route hroute
    rw [← h]
    exact get?_clear_of_ne hroute d
  · intro h
    rw [clear, if_pos]
    rw [List.all_eq_true]
    rintro ⟨route, e⟩ hmem
    have hget : d.get? route = some e := Std.TreeMap.mem_toList_iff_getElem?_eq_some.1 hmem
    by_contra hne
    rw [h route (fun hroot => hne (List.isEmpty_iff.2 hroot))] at hget
    cases hget

/-- What is found is taken, unless it is a directory that is spared. -/
theorem remove_of_find {e : Entry} (h : d.find .name path = .ok (route, e))
    (hdir : e.isDirectory = true → recursive = true ∧ route ≠ []) :
    d.remove recursive path = (d.without route e, .ok ()) := by
  rw [remove, h, without]
  cases he : e.isDirectory with
  | false => simp [he]
  | true =>
      rcases hdir he with ⟨rfl, hroute⟩
      simp [he, hroute]

/-- The root stays, and all below it goes. -/
theorem remove_of_root {e : Entry} (h : d.find .name path = .ok ([], e))
    (hdir : e.isDirectory = true) :
    d.remove true path = (d.clear, .error .busy) := by
  rw [remove, h]
  simp [hdir]

/-- Removing takes away the entry that the path names, and it takes a directory only on request. It
fails without a change, unless the root is to be removed. -/
theorem remove_cases (d : Disk) (recursive : Bool) (path : String) :
    (∃ route e, d.find .name path = .ok (route, e) ∧
    (e.isDirectory = true → recursive = true ∧ route ≠ []) ∧
      d.remove recursive path = (d.without route e, .ok ())) ∨
    (∃ e, d.find .name path = .ok ([], e) ∧ e.isDirectory = true ∧ recursive = true ∧
      d.remove recursive path = (d.clear, .error .busy)) ∨
    ∃ fault, d.remove recursive path = (d, .error fault) ∧
      (fault = .notFound → d.find .name path = .error .notFound) := by
  rcases hfind : d.find .name path with fault | ⟨route, e⟩
  · refine .inr (.inr ⟨fault, by rw [remove, hfind], ?_⟩)
    rintro rfl
    rfl
  · by_cases hdir : e.isDirectory = true → recursive = true ∧ route ≠ []
    · exact .inl ⟨route, e, rfl, hdir, remove_of_find hfind hdir⟩
    · rcases Classical.not_imp.1 hdir with ⟨he, hkept⟩
      cases recursive with
      | false =>
          refine .inr (.inr ⟨.isDirectory, by rw [remove, hfind]; simp [he], ?_⟩)
          rintro ⟨⟩
      | true =>
          have hroot : route = [] := not_not.1 fun hne => hkept ⟨rfl, hne⟩
          subst hroot
          exact .inr (.inl ⟨e, rfl, he, rfl, remove_of_root hfind he⟩)

/-- A disk on which entries are as before or gone is thinned. -/
theorem thinned_of_bodies (h : ∀ route, d'.body? route = none ∨ d'.body? route = d.body? route) :
    d.Thinned d' := by
  intro route e' he'
  have hbody : d'.body? route = some e'.body := by rw [body?, he', Option.map_some]
  rcases h route with hnone | hsame
  · rw [hbody] at hnone
    cases hnone
  · rw [hbody, eq_comm, body?, Option.map_eq_some_iff] at hsame
    rcases hsame with ⟨e, he, hsame⟩
    have hnode : e.node = e'.node := congrArg Prod.fst hsame
    exact ⟨e, he, by rw [hnode]⟩

/-- Taking an entry clears its route. -/
theorem cleared_without (d : Disk) (route : Route) (e : Entry) (written : Route → Prop) :
    Cleared (fun r => r = route) written d (d.without route e) where
  thinned := by
    refine thinned_of_bodies fun route' => ?_
    rw [body?_without]
    split
    · exact .inl rfl
    · exact .inr rfl
  bodies route' _ hfree := by
    rw [body?_without, if_neg (fun hgone => hfree route rfl hgone.below)]
  times route' _ hfree := by
    rw [get?_without_of_ne (hfree route rfl).2,
      if_neg (fun hgone => (hfree route rfl).1 hgone.below)]

/-- All that is gone from a disk that is cleared was below the root. -/
theorem cleared_clear (d : Disk) (written : Route → Prop) :
    Cleared (fun r => r = []) written d d.clear where
  thinned := by
    refine thinned_of_bodies fun route => ?_
    rw [body?_clear]
    split
    next hroot => exact .inr (by rw [hroot])
    next => exact .inl rfl
  bodies route _ hfree := absurd List.nil_prefix (hfree [] rfl)
  times route _ hfree := absurd List.nil_prefix (hfree [] rfl).1

/-- Taking a file keeps directories. -/
theorem keepsDirectories_without {e : Entry} (he : d.get? route = some e)
    (hdir : e.isDirectory = false) :
    d.KeepsDirectories (d.without route e) := by
  intro route' e' he' hdir'
  have hother : ¬ GoesWith route e route' := by
    rintro (rfl | ⟨htrue, -⟩)
    · rw [he] at he'
      cases he'
      rw [hdir] at hdir'
      cases hdir'
    · rw [hdir] at htrue
      cases htrue
  rw [body?_without, if_neg hother, body?, he', Option.map_some]

/-! ### Writing -/

variable {handle handle' : Handle} {bs : Bytes}

/-- Writing to an open file changes no other entry, and makes none. -/
theorem write_cases (h : d.write handle bs = .ok (d', handle')) :
    handle'.route = handle.route ∧ (d' = d ∨ ∃ content written mode modified,
      d.get? handle.route = some ⟨.file content, mode, modified⟩ ∧
        d' = (d.set handle.route ⟨.file written, mode, modified⟩).stamp handle.route) := by
  unfold write at h
  split at h
  · cases h
    exact ⟨rfl, .inl rfl⟩
  split at h
  next content mode modified he =>
    cases h
    exact ⟨rfl, .inr ⟨content, _, mode, modified, he, rfl⟩⟩
  next => cases h
  next =>
    cases h
    exact ⟨rfl, .inl rfl⟩

/-- A write changes the content of its own file. -/
theorem cleared_write (h : d.write handle bs = .ok (d', handle')) (named : Route → Prop) :
    Cleared named (fun r => r = handle.route) d d' := by
  rcases (write_cases h).2 with rfl | ⟨content, written, mode, modified, he, rfl⟩
  · exact .refl _ _ _
  · have hother : ∀ route, ¬ route = handle.route →
        ((d.set handle.route ⟨.file written, mode, modified⟩).stamp handle.route).get? route =
          d.get? route := by
      intro route hne
      rw [get?_stamp_of_ne (Ne.symm hne), get?_set, if_neg (Ne.symm hne)]
    refine ⟨fun route e' he' => ?_, fun route hne _ => ?_, fun route hne _ => hother route hne⟩
    · by_cases heq : route = handle.route
      · subst heq
        have hbody : ((d.set handle.route ⟨.file written, mode, modified⟩).stamp
            handle.route).body? handle.route = some (.file written, mode) := by
          rw [body?_stamp, body?_set, if_pos rfl]
          rfl
        rw [body?, he', Option.map_some, Option.some.injEq] at hbody
        have hnode : e'.node = .file written := congrArg Prod.fst hbody
        exact ⟨_, he, by rw [hnode]; rfl⟩
      · rw [hother route heq] at he'
        exact ⟨e', he', rfl⟩
    · rw [body?, hother route hne, body?]

/-- A write keeps directories. -/
theorem keepsDirectories_write (h : d.write handle bs = .ok (d', handle')) :
    d.KeepsDirectories d' := by
  rcases (write_cases h).2 with rfl | ⟨content, written, mode, modified, he, rfl⟩
  · exact .refl _
  · intro route e he' hdir
    have hne : handle.route ≠ route := by
      rintro rfl
      rw [he] at he'
      cases he'
      cases hdir
    rw [body?, get?_stamp_of_ne hne, get?_set, if_neg hne, he', Option.map_some]

end Cleared

end Disk

end LineShell
