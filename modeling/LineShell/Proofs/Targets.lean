import LineShell.Proofs.Failures
import LineShell.Proofs.Grouping
import LineShell.Proofs.Trail

/-!
# Targets — what a redirection that cannot be opened leaves behind

The targets of a stage are opened one after the other, in role order. Opening a file for writing
makes it or empties it, so a target that cannot be opened leaves a trace of those before it, and of
nothing else.

* `Place.Stands` — where a path leads is what stands on the disk;
* `Disk.Touched` — a disk before and after files have been opened for writing: what was made, what
  was emptied, and that all else is as it was;
* `Disk.Opens` — targets that can be opened in turn, with the files that this opens for writing;
* `Disk.Opens.touched` — opening targets in turn touches these files only;
* `runOn_openAll_of_opens` — the shell opens them this way, and records that it did;
* `Visit.SaysAndEnds` — a stage that has nothing left to do but to say so;
* `unopened_target_leaves_rest` — a stage one of whose targets cannot be opened.
-/

namespace LineShell

/-! ## Files that are made and emptied -/

/-- What an entry is, apart from the time of its last change. -/
def Entry.body (e : Entry) : Node × Nat :=
  (e.node, e.mode)

/-- What is left of a node that is opened for writing from the start: of a file nothing but the
file. -/
def Node.emptied : Node → Node
  | .file _ => .file {}
  | node => node

@[simp] theorem Node.emptied_emptied (node : Node) : node.emptied.emptied = node.emptied := by
  cases node <;> rfl

namespace Disk

variable {d d₁ d₂ : Disk} {route : Route} {opened opened₁ opened₂ : List (Route × Bool)}

def body? (d : Disk) (route : Route) : Option (Node × Nat) :=
  (d.get? route).map Entry.body

/-- What is to be found at a route once files have been opened for writing, each given by its route
and by whether writing goes to its end: a missing file has been made, and one that was there has
been emptied if it was opened from the start at least once. -/
def bodyAfter? (d : Disk) (opened : List (Route × Bool)) (route : Route) : Option (Node × Nat) :=
  match d.body? route with
  | none => if route ∈ opened.map Prod.fst then some (.file {}, fileMode) else none
  | some (node, mode) => some (if (route, false) ∈ opened then node.emptied else node, mode)

/-- Opening the files changed nothing but what it had to. -/
structure Touched (d : Disk) (opened : List (Route × Bool)) (d' : Disk) : Prop where
  /-- Files are made and emptied, and no other content, permission or entry differs. -/
  bodies : ∀ route, d'.body? route = d.bodyAfter? opened route
  /-- Times change for the files themselves, and for the directories that a file was made in. -/
  times : ∀ route, route ∉ opened.map Prod.fst →
    (∀ file ∈ opened.map Prod.fst, d.get? file = none → file.dropLast ≠ route) →
    d'.get? route = d.get? route

theorem body?_eq_none : d.body? route = none ↔ d.get? route = none :=
  Option.map_eq_none_iff

theorem Touched.refl (d : Disk) : d.Touched [] d := by
  refine ⟨?_, fun _ _ _ => rfl⟩
  intro route
  simp only [bodyAfter?, List.map_nil, List.not_mem_nil, if_false]
  cases d.body? route <;> rfl

/-- Touches in turn. -/
theorem Touched.append (h₁ : d.Touched opened₁ d₁) (h₂ : d₁.Touched opened₂ d₂) :
    d.Touched (opened₁ ++ opened₂) d₂ := by
  constructor
  · intro route
    rw [h₂.bodies, bodyAfter?, h₁.bodies, bodyAfter?, bodyAfter?]
    -- A file that the first part made is empty already, so it does not matter what the second part
    -- did to it.
    cases d.body? route with
    | none =>
        by_cases hmade : route ∈ opened₁.map Prod.fst
        · simp [hmade, Node.emptied]
        · simp only [hmade, if_false, List.map_append, List.mem_append, false_or]
    | some body =>
        by_cases hfirst : (route, false) ∈ opened₁ <;> by_cases hthen : (route, false) ∈ opened₂ <;>
          simp [hfirst, hthen]
  · intro route hroute hparent
    simp only [List.map_append, List.mem_append, not_or] at hroute hparent
    have hsame : d₁.get? route = d.get? route :=
      h₁.times route hroute.1 fun file hfile => hparent file (.inl hfile)
    rw [← hsame]
    refine h₂.times route hroute.2 ?_
    intro file hfile hmissing
    -- What is missing after the first part was missing before it.
    have hbody := h₁.bodies file
    rw [body?_eq_none.2 hmissing, bodyAfter?] at hbody
    cases hbefore : d.body? file with
    | none => exact hparent file (.inr hfile) (body?_eq_none.1 hbefore)
    | some body => simp [hbefore] at hbody

/-! ## One file -/

theorem get?_set (d : Disk) (route route' : Route) (e : Entry) :
    (d.set route e).get? route' = if route = route' then some e else d.get? route' := by
  simp [get?, set, Std.TreeMap.getElem?_insert, Std.LawfulEqCmp.compare_eq_iff_eq]

@[simp] theorem get?_tick (d : Disk) (route : Route) : d.tick.get? route = d.get? route := rfl

theorem get?_stamp_of_ne {route' : Route} (h : route ≠ route') :
    (d.stamp route).get? route' = d.get? route' := by
  unfold stamp
  split
  · rw [get?_tick, get?_set, if_neg h]
  · rfl

/-- A new time is all that a stamp gives. -/
@[simp] theorem body?_stamp (d : Disk) (route route' : Route) :
    (d.stamp route).body? route' = d.body? route' := by
  unfold stamp
  split
  next e he =>
    rw [body?, get?_tick, get?_set]
    split
    next heq => simp [← heq, body?, he, Entry.body]
    next => rfl
  next => rfl

/-- Setting an entry changes the body at its route only. -/
theorem body?_set (d : Disk) (route route' : Route) (e : Entry) :
    (d.set route e).body? route' = if route = route' then some e.body else d.body? route' := by
  rw [body?, get?_set]
  split <;> rfl

/-- A new file counts as touched. -/
theorem touched_add (append : Bool) (h : d.get? route = none) :
    d.Touched [(route, append)] (d.add route (.file {}) fileMode) := by
  constructor
  · intro route'
    have htick : ∀ d' : Disk, d'.tick.body? route' = d'.body? route' := fun _ => rfl
    rw [add, body?_stamp, htick, body?_set, bodyAfter?]
    split
    next heq => simp [← heq, body?_eq_none.2 h, Entry.body]
    next hne =>
      have hother : route' ≠ route := fun heq => hne heq.symm
      cases d.body? route' <;> simp [hother]
  · intro route' hroute hparent
    simp only [List.map_cons, List.map_nil, List.mem_singleton, forall_eq] at hroute hparent
    have hdir : route.dropLast ≠ route' := hparent h
    rw [add, get?_stamp_of_ne hdir, get?_tick, get?_set, if_neg (Ne.symm hroute)]

/-- Emptying a file touches it, and appending to it does not. -/
theorem touched_empty {e : Entry} (h : d.get? route = some e) :
    d.Touched [(route, false)] (d.empty route) := by
  constructor
  · intro route'
    rw [empty, bodyAfter?]
    split
    next content mode modified he =>
      rw [body?_stamp, body?_set]
      by_cases heq : route = route'
      · subst heq
        simp [body?, he, Entry.body, Node.emptied]
      · have hother : route' ≠ route := Ne.symm heq
        cases d.body? route' <;> simp [heq, hother]
    next hnofile =>
      -- What stands there is not a file, and nothing is taken from it.
      have hkept : e.node.emptied = e.node := by
        rcases e with ⟨node, mode, modified⟩
        cases node with
        | file content => exact (hnofile content mode modified h).elim
        | directory => rfl
        | link target => rfl
        | device device => rfl
      by_cases heq : route = route'
      · subst heq
        simp [body?, h, Entry.body, hkept]
      · have hother : route' ≠ route := Ne.symm heq
        cases d.body? route' <;> simp [hother]
  · intro route' hroute _
    have hne : route ≠ route' := by
      rintro rfl
      simp at hroute
    rw [empty]
    split
    · rw [get?_stamp_of_ne hne, get?_set, if_neg hne]
    · rfl

/-- A file that is there is left as it is if writing goes to its end. -/
theorem touched_of_append {e : Entry} (h : d.get? route = some e) :
    d.Touched [(route, true)] d := by
  refine ⟨?_, fun _ _ _ => rfl⟩
  intro route'
  rw [bodyAfter?]
  by_cases heq : route' = route
  · subst heq
    simp [body?, h]
  · cases d.body? route' <;> simp [heq]

/-! ## Where a path leads -/

end Disk

/-- Where a path leads is what stands there on the disk. -/
def Place.Stands (d : Disk) : Place → Prop
  | .entry route e => d.get? route = some e
  | .vacant route => d.get? route = none

namespace Disk

variable {d d' : Disk} {goal : Goal} {place : Place} {path : String}

/-- A walk ends at a place that stands on the disk. -/
theorem walkWith_stands {onLink : Route → List String → Except Fault Place}
    (hlink : ∀ here names place, onLink here names = .ok place → place.Stands d) {here : Route}
    {names : List String} (h : d.walkWith goal onLink here names = .ok place) : place.Stands d := by
  induction names generalizing here with
  | nil =>
      rw [walkWith] at h
      split at h
      · cases h
        assumption
      · cases h
  | cons name rest ih =>
      rw [walkWith] at h
      split at h
      · exact ih h
      split at h
      · exact ih h
      split at h
      · cases h
      split at h
      · cases h
      -- Names that are skipped, and names that end the walk with a fault, have gone by now.
      dsimp only at h
      cases hget : d.get? (here ++ [name]) with
      | none =>
          simp only [hget] at h
          split at h
          · cases h
            exact hget
          · cases h
      | some e =>
          simp only [hget] at h
          split at h
          · exact ih h
          · -- A link is where the walk ends, or it is followed.
            split at h
            · cases h
              exact hget
            · exact hlink _ _ _ h
          · split at h
            · cases h
              exact hget
            · cases h

/-- However many links are allowed, a walk ends at a place that stands on the disk. -/
theorem walk_stands {links : Nat} {here : Route} {names : List String}
    (h : d.walk goal links here names = .ok place) : place.Stands d := by
  induction links generalizing here names place with
  | zero =>
      apply walkWith_stands ?_ h
      intro _ _ _ hnone
      cases hnone
  | succ links ih => exact walkWith_stands (fun _ _ _ hlink => ih hlink) h

theorem locate_stands (h : d.locate goal path = .ok place) : place.Stands d := by
  unfold locate at h
  split at h
  · cases h
  split at h
  · cases h
  · exact walk_stands h

/-- Where nothing is, a file is made. -/
theorem openOutput_of_vacant {route : Route} (append : Bool)
    (h : d.locate .file path = .ok (.vacant route)) :
    d.openOutput append path = .ok (d.add route (.file {}) fileMode, { route, append }) := by
  rw [openOutput, h]
  rfl

/-- A file that is opened for writing is made or emptied, or left as it is. -/
theorem touched_openOutput {append : Bool} {handle : Handle}
    (h : d.openOutput append path = .ok (d', handle)) : d.Touched [(handle.route, append)] d' := by
  unfold openOutput at h
  cases hplace : d.locate .file path with
  | error fault =>
      rw [hplace] at h
      cases h
  | ok place =>
      -- What the path leads to stands on the disk, so it is made, emptied or kept.
      have hstands := locate_stands hplace
      rw [hplace] at h
      cases place with
      | vacant route =>
          cases h
          exact touched_add append hstands
      | entry route e =>
          change (if e.isDirectory then _ else _) = _ at h
          split at h
          · cases h
          · cases append with
            | true =>
                cases h
                exact touched_of_append hstands
            | false =>
                cases h
                exact touched_empty hstands

end Disk

/-! ## Targets in turn -/

/-- The targets can be opened one after the other; `opened` are the files that are opened for
writing, each with whether writing goes to its end, and `d'` is the disk after that. -/
inductive Disk.Opens (cwd : String) :
    Disk → List (Redirection String) → List (Route × Bool) → Disk → Prop where
  | none {d : Disk} : Opens cwd d [] [] d
  | input {d d' : Disk} {r : Redirection String} {rs : List (Redirection String)}
      {opened : List (Route × Bool)} {handle : Handle} (role : r.role = .stdin)
      (found : d.openInput (Path.resolve cwd r.target) =
        .ok handle) (others : Opens cwd d rs opened d') :
      Opens cwd d (r :: rs) opened d'
  | output {d d₁ d' : Disk} {r : Redirection String} {rs : List (Redirection String)}
      {opened : List (Route × Bool)} {handle : Handle} (role : r.role ≠ .stdin)
      (found : d.openOutput r.append (Path.resolve cwd r.target) = .ok (d₁, handle))
      (others : Opens cwd d₁ rs opened d') :
      Opens cwd d (r :: rs) ((handle.route, r.append) :: opened) d'

def Disk.Refuses (d : Disk) (cwd : String) (r : Redirection String) (fault : Fault) : Prop :=
  d.openFor r.role r.append (Path.resolve cwd r.target) = .error fault

namespace Disk

variable {d d' : Disk} {cwd path : String} {r : Redirection String} {rs : List (Redirection String)}
  {opened : List (Route × Bool)} {role : Role} {append : Bool}

theorem openFor_stdin :
    d.openFor .stdin append path = (d.openInput path).map fun handle => (d, handle) := rfl

/-- Every role but the input opens for output. -/
theorem openFor_of_ne (h : role ≠ .stdin) :
    d.openFor role append path = d.openOutput append path := by
  cases role with
  | stdin => exact (h rfl).elim
  | stdout => rfl
  | stderr => rfl
  | descriptor digits => rfl

/-- What a stage has opened is what it touched. -/
theorem Opens.touched (h : Opens cwd d rs opened d') : d.Touched opened d' := by
  induction h with
  | none => exact .refl _
  | input _ _ _ ih => exact ih
  | output _ found _ ih => exact (touched_openOutput found).append ih

/-- The targets can all be opened in turn, or there is a first one that cannot. -/
theorem exists_opens (cwd : String) (d : Disk) (rs : List (Redirection String)) :
    (∃ opened d', Opens cwd d rs opened d') ∨
    ∃ front r back opened d' fault, rs = front ++ r :: back ∧ Opens cwd d front opened d' ∧
      d'.Refuses cwd r fault := by
  induction rs generalizing d with
  | nil => exact .inl ⟨[], d, .none⟩
  | cons r rs ih =>
      -- If the first target opens then the others are tried on the disk that it leaves.
      by_cases hrole : r.role = .stdin
      · cases hfound : d.openInput (Path.resolve cwd r.target) with
        | error fault =>
            refine .inr ⟨[], r, rs, [], d, fault, rfl, .none, ?_⟩
            rw [Refuses, hrole, openFor_stdin, hfound]
            rfl
        | ok handle =>
            rcases ih d with ⟨opened, d', hrest⟩ |
              ⟨front, r', back, opened, d', fault, rfl, hfront, hfault⟩
            · exact .inl ⟨opened, d', .input hrole hfound hrest⟩
            · exact .inr ⟨r :: front, r', back, opened, d', fault, rfl, .input hrole hfound hfront,
                hfault⟩
      · cases hfound : d.openOutput r.append (Path.resolve cwd r.target) with
        | error fault =>
            refine .inr ⟨[], r, rs, [], d, fault, rfl, .none, ?_⟩
            rw [Refuses, openFor_of_ne hrole, hfound]
        | ok made =>
            rcases made with ⟨d₁, handle⟩
            rcases ih d₁ with ⟨opened, d', hrest⟩ |
              ⟨front, r', back, opened, d', fault, rfl, hfront, hfault⟩
            · exact .inl ⟨_, d', .output hrole hfound hrest⟩
            · exact .inr ⟨r :: front, r', back, _, d', fault, rfl, .output hrole hfound hfront,
                hfault⟩

end Disk

/-! ## What the shell does -/

/-- What is recorded of a target that was opened. -/
def Redirection.records (cwd : String) (r : Redirection String) : List Log.Event :=
  .openedRedirection r.role (Path.resolve cwd r.target) r.append ::
    match r.role with
    | .descriptor digits => [.descriptorNotConnected digits]
    | _ => []

/-- A session that has opened targets, which left the disk as it is now. -/
def Session.havingOpened (s : Session) (rs : List (Redirection String)) (disk : Disk) : Session :=
  s.withScene { s.scene.notingAll (rs.flatMap (Redirection.records s.scene.cwd)) with
    host := { s.scene.host with disk } }

theorem Session.havingOpened_cons (s : Session) (r : Redirection String)
    (rs : List (Redirection String)) (d₁ d₂ : Disk) :
    (s.havingOpened [r] d₁).havingOpened rs d₂ = s.havingOpened (r :: rs) d₂ := by
  simp [Session.havingOpened, Session.withScene, Scene.notingAll, List.append_assoc]

section Opening

variable {s : Session} {files : StageFiles} {r : Redirection String}
  {front : List (Redirection String)} {opened : List (Route × Bool)} {d' : Disk}

/-- A file that opens is connected to its role. -/
theorem runOn_openOne_of_ok {handle : Handle}
    (h : s.scene.host.disk.openFor r.role r.append (Path.resolve s.scene.cwd r.target) =
    .ok (d', handle)) :
    runOn (openOne files r) s =
      (.ok (.ok (files.connect handle r.role)), s.havingOpened [r] d') := by
  simp only [openOne, runOn_bind, runOn_get, h, runOn_set, runOn_note]
  rcases r with ⟨role, append, target⟩
  cases role <;> simp [Session.havingOpened, Session.withHost, Session.withScene, Session.noting,
    Scene.noting, Scene.notingAll, Redirection.records, runOn_map, Except.map]

/-- A file that does not open leaves the session as it was. -/
theorem runOn_openOne_of_refuses {fault : Fault}
    (h : s.scene.host.disk.Refuses s.scene.cwd r fault) :
    runOn (openOne files r) s = (.ok (.error ⟨r.target, fault⟩), s) := by
  simp only [Disk.Refuses] at h
  simp only [openOne, runOn_bind, runOn_get, h, runOn_pure]

/-- Files are opened one after the other. -/
theorem runOn_openAll_cons {rs : List (Redirection String)} {handle : Handle}
    (h : s.scene.host.disk.openFor r.role r.append (Path.resolve s.scene.cwd r.target) =
    .ok (d', handle)) :
    runOn (openAll files (r :: rs)) s =
      runOn (openAll (files.connect handle r.role) rs) (s.havingOpened [r] d') := by
  rw [openAll, runOn_bind_of_ok (runOn_openOne_of_ok h)]

/-- Targets that can be opened are opened, and then come the others. -/
theorem runOn_openAll_of_opens (h : Disk.Opens s.scene.cwd s.scene.host.disk front opened d') :
    ∃ files', ∀ back, runOn (openAll files (front ++ back)) s =
      runOn (openAll files' back) (s.havingOpened front d') := by
  -- Only the disk changes on the way, so the induction is on how it came to be.
  generalize hcwd : s.scene.cwd = cwd at h
  generalize hdisk : s.scene.host.disk = d at h
  induction h generalizing s files with
  | none =>
      subst hdisk
      have hsame : s.havingOpened [] s.scene.host.disk = s := by
        simp [Session.havingOpened, Session.withScene, Scene.notingAll]
      exact ⟨files, fun back => by rw [hsame, List.nil_append]⟩
  | @input d d' r rs opened handle role found others ih =>
      subst hcwd hdisk
      have hopen : s.scene.host.disk.openFor r.role r.append (Path.resolve s.scene.cwd r.target) =
          .ok (s.scene.host.disk, handle) := by
        rw [role, Disk.openFor_stdin, found]
        rfl
      rcases @ih (s.havingOpened [r] s.scene.host.disk) (files.connect handle r.role) rfl rfl with
        ⟨files', hrest⟩
      refine ⟨files', ?_⟩
      intro back
      rw [List.cons_append, runOn_openAll_cons hopen, hrest, Session.havingOpened_cons]
  | @output d d₁ d' r rs opened handle role found others ih =>
      subst hcwd hdisk
      have hopen : s.scene.host.disk.openFor r.role r.append (Path.resolve s.scene.cwd r.target) =
          .ok (d₁, handle) := by
        rw [Disk.openFor_of_ne role, found]
      rcases @ih (s.havingOpened [r] d₁) (files.connect handle r.role) rfl rfl with ⟨files', hrest⟩
      refine ⟨files', ?_⟩
      intro back
      rw [List.cons_append, runOn_openAll_cons hopen, hrest, Session.havingOpened_cons]

/-- The first target that cannot be opened stops the rest. -/
theorem runOn_openAll_of_refuses {fault : Fault} (back : List (Redirection String))
    (h : Disk.Opens s.scene.cwd s.scene.host.disk front opened d')
    (hfault : d'.Refuses s.scene.cwd r fault) :
    runOn (openAll files (front ++ r :: back)) s =
      (.ok (.error ⟨r.target, fault⟩), s.havingOpened front d') := by
  rcases @runOn_openAll_of_opens _ files _ _ _ h with ⟨files', hrest⟩
  have hone : runOn (openOne files' r) (s.havingOpened front d') =
      (.ok (.error ⟨r.target, fault⟩), s.havingOpened front d') :=
    runOn_openOne_of_refuses hfault
  rw [hrest, openAll, runOn_bind_of_ok hone, runOn_pure]

end Opening

/-! ## Order -/

theorem Role.order_stdin_ne_lt (role : Role) : role.order .stdin ≠ .lt := by
  cases role with
  | stdin => decide
  | stdout => decide
  | stderr => decide
  | descriptor digits =>
      -- The rank decides, whatever the digits are.
      have hgt : (Role.descriptor digits).order .stdin = .gt := rfl
      rw [hgt]
      decide

namespace Redirection

/-- In the order of roles, nothing stands before the input. -/
theorem Ordered.eq_nil_of_stdin {W : Type} {front back : List (Redirection W)} {r : Redirection W}
    (h : Ordered (front ++ r :: back)) (hrole : r.role = .stdin) : front = [] := by
  cases front with
  | nil => rfl
  | cons first front =>
      have hlt := (List.pairwise_cons.1 h).1 r (by simp)
      rw [hrole] at hlt
      exact (Role.order_stdin_ne_lt _ hlt).elim

/-- Whether a list is in role order does not depend on its targets. -/
theorem Ordered.of_marks {W W' : Type} {rs : List (Redirection W)} {rs' : List (Redirection W')}
    (h : Ordered rs) (hmarks : rs'.map mark = rs.map mark) : Ordered rs' := by
  have hmarked : ∀ {V : Type} (l : List (Redirection V)),
      Ordered l ↔ (l.map mark).Pairwise fun a b => a.1.order b.1 = .lt := by
    intro V l
    rw [List.pairwise_map]
    rfl
  rw [hmarked, hmarks, ← hmarked]
  exact h

/-- What the shell says about a target that cannot be opened. -/
def complaint (r : Redirection String) (fault : Fault) : String :=
  s!"minsh: {r.target}: {fault.describe}"

/-- The complaint names the target and the fault. -/
theorem complaint_eq (r : Redirection String) (fault : Fault) :
    s!"minsh: {(Error.redirect r.target fault).message}" = r.complaint fault := by
  have hmessage : (Error.redirect r.target fault).message = r.target ++ ": " ++ fault.describe :=
    rfl
  rw [hmessage, complaint]
  generalize fault.describe = reason
  simp only [toString, String.append_assoc]

end Redirection

/-! ## Stages -/

section Stages

variable {sub : Substitution} {wiring : Wiring} {v : Visit} {stage : Stage String} {err err' : Sink}
  {t u : Session} {front back : List (Redirection String)} {r : Redirection String}
  {opened : List (Route × Bool)} {d' : Disk} {fault : Fault} {e : Error}

/-- In the session `t` the stage has nothing left to do but to say something and to end the
pipeline. -/
def Visit.SaysAndEnds (v : Visit) (err : Sink) (text : String) (t : Session) : Prop :=
  (v.result, v.after) = runOn (do
    let err ← Exec.report err text
    return ⟨.aborted 1, v.out, err⟩) t

/-- A stage one of whose targets cannot be opened has nothing left to do but to say so. -/
theorem Visit.Runs.unopened (hrun : v.Runs sub wiring) (hexp : v.Expanded sub wiring stage err t)
    (sound : t.expansionFailed = false) (hrs : stage.redirections = front ++ r :: back)
    (hfront : Disk.Opens t.scene.cwd t.scene.host.disk front opened d')
    (hfault : d'.Refuses t.scene.cwd r fault) :
    v.SaysAndEnds err (r.complaint fault) (t.havingOpened front d') := by
  have hopen : runOn (openAll {} (front ++ r :: back)) t =
      (.ok (.error ⟨r.target, fault⟩), t.havingOpened front d') :=
    runOn_openAll_of_refuses back hfront hfault
  rw [← hrs] at hopen
  unfold Visit.Runs at hrun
  rw [runOn_runStage_of_opened hexp sound hopen] at hrun
  dsimp only at hrun
  rw [r.complaint_eq] at hrun
  exact hrun.symm

/-- A report touches the disk only if it goes to a file. -/
theorem report_keeps_disk (hsink : ∀ handle, err ≠ .file handle) (text : String) :
    Keeps (fun s => s.scene.host.disk) (Exec.report err text) := by
  intro s
  have hdisk : (err.write (Utf8.encode (text ++ "\n")) s.scene.host).2.1.disk =
    s.scene.host.disk := by
    cases err with
    | file handle => exact (hsink handle rfl).elim
    | stdout => rfl
    | stderr => rfl
    | buffer bytes => rfl
  rw [Exec.report, runOn_write]
  split <;> simp_all [Session.withHost]

/-- The command of such a stage never gets to run. -/
theorem Visit.Expanded.not_ready (hexp : v.Expanded sub wiring stage err t)
    (hrs : stage.redirections = front ++ r :: back)
    (hfront : Disk.Opens t.scene.cwd t.scene.host.disk front opened d')
    (hfault : d'.Refuses t.scene.cwd r fault) :
    ¬ ∃ stage files err u, v.Ready sub wiring stage files err u := by
  rintro ⟨stage', files, err', u, t', hexp', -, hopen⟩
  have hsame : (Except.ok (stage', err'), t') = ((Except.ok (stage, err) : Except Error _), t) :=
    hexp'.symm.trans hexp
  cases hsame
  rw [hrs, runOn_openAll_of_refuses back hfront hfault] at hopen
  cases hopen

/-- A pipeline whose last stage was broken off answers with the status of that. -/
theorem runOn_runWith_of_aborted {p : Pipeline} {s : Session} {vs : List Visit} {out : Sink}
    {code : Int} (hvs : visits sub wiring p s = vs ++ [v])
    (hr : v.result = .ok ⟨.aborted code, out, err'⟩) :
    runOn (runWith sub p wiring) s =
      (.ok (wiring.resultOf { code, err := err' }),
        v.after.noting (.stageFinished vs.length (.aborted code))) := by
  rw [runOn_runWith hvs, Visit.conclusion, hr]
  rfl

namespace Visit.SaysAndEnds

variable {text : String}

/-- What is said and ended with leaves variables and directory alone. -/
theorem stance_eq (h : v.SaysAndEnds err text t) : v.after.stance = t.stance := by
  have hstance := (Keeps.bind (report_keeps_stance err text)
    (fun err => .pure (⟨.aborted 1, v.out, err⟩ : Ended))).eq h.symm
  exact hstance

/-- Unless the errors go to a file, the disk stays as it was. -/
theorem disk_eq (h : v.SaysAndEnds err text t) (hsink : ∀ handle, err ≠ .file handle) :
    v.after.scene.host.disk = t.scene.host.disk := by
  have hdisk := (Keeps.bind (report_keeps_disk hsink text)
    (fun err => .pure (⟨.aborted 1, v.out, err⟩ : Ended))).eq h.symm
  exact hdisk

/-- Where the complaint is written, the stage ends with status one. -/
theorem of_said (h : v.SaysAndEnds err text t)
    (hreport : runOn (Exec.report err text) t = (.ok err', u)) :
    v.result = .ok ⟨.aborted 1, v.out, err'⟩ ∧ v.after = u := by
  unfold SaysAndEnds at h
  rw [runOn_bind_of_ok hreport, runOn_pure, Prod.mk.injEq] at h
  exact h

/-- Where the complaint cannot be written, the line ends with an error. -/
theorem of_unsaid (h : v.SaysAndEnds err text t)
    (hreport : runOn (Exec.report err text) t = (.error e, u)) :
    v.result = .error e ∧ v.after = u := by
  unfold SaysAndEnds at h
  rw [runOn_bind_of_error hreport, Prod.mk.injEq] at h
  exact h

/-- Whether or not that can be said, no stage is run behind it. -/
theorem not_passed (h : v.SaysAndEnds err text t) (ended : Ended) : ¬ v.Passed ended := by
  rintro ⟨hr, hcont⟩
  cases hreport : runOn (Exec.report err text) t with
  | mk said u =>
      cases said with
      | ok err' =>
          rw [(h.of_said hreport).1] at hr
          cases hr
          exact hcont
      | error e =>
          rw [(h.of_unsaid hreport).1] at hr
          cases hr

end Visit.SaysAndEnds

end Stages

/-- Without output there is none in the result. -/
theorem Wiring.stdout_resultOf (wiring : Wiring) {flow : Flow} (h : flow.output = []) :
    (wiring.resultOf flow).stdout = "" := by
  unfold Wiring.resultOf
  rw [h]
  cases wiring.captureOutput <;> rfl

/-- A stage of which no expansion failed opens its targets in role order, each role once, as it was
last written. If one of them cannot be opened, then those before it have been opened and nothing
else has been done to the disk; the shell says so about this target, runs no command, and ends the
pipeline with a failure, or with the error that this cannot be said. -/
theorem unopened_target_leaves_rest (levels : Nat) (p : Pipeline) (wiring : Wiring) (s : Session)
    {v : Visit} (hv : v ∈ visits (substitutionWithin levels) wiring p s)
    {written : List (Redirection Word)}
    (hwritten : v.command.redirections = written.foldl (fun acc r => r.insert acc) [])
    {stage : Stage String} {err : Sink} {t : Session}
    (hexp : v.Expanded (substitutionWithin levels) wiring stage err t)
    (sound : t.expansionFailed = false) :
    (Redirection.Ordered stage.redirections ∧
      stage.redirections.map Redirection.mark =
        (Redirection.lastOfEach written).map Redirection.mark) ∧
    ((∃ opened d' files,
        Disk.Opens t.scene.cwd t.scene.host.disk stage.redirections opened d' ∧
        t.scene.host.disk.Touched opened d' ∧
        v.Ready (substitutionWithin levels) wiring stage files err
          (t.havingOpened stage.redirections d')) ∨
      ∃ front r back opened d' fault, stage.redirections = front ++ r :: back ∧
        Disk.Opens t.scene.cwd t.scene.host.disk front opened d' ∧ d'.Refuses t.scene.cwd r fault) ∧
    ∀ front r back opened d' fault, stage.redirections = front ++ r :: back →
      Disk.Opens t.scene.cwd t.scene.host.disk front opened d' → d'.Refuses t.scene.cwd r fault →
        t.scene.host.disk.Touched opened d' ∧
        (r.role = .stdin → front = [] ∧ opened = [] ∧ d' = t.scene.host.disk) ∧
        (¬ ∃ stage files err u, v.Ready (substitutionWithin levels) wiring stage files err u) ∧
        v.after.stance = t.stance ∧
        ((∀ handle, err ≠ .file handle) → v.after.scene.host.disk = d') ∧
        ∃ vs, visits (substitutionWithin levels) wiring p s = vs ++ [v] ∧
          (∀ err' u, runOn (Exec.report err (r.complaint fault)) (t.havingOpened front d') =
            (.ok err', u) →
            v.result = .ok ⟨.aborted 1, v.out, err'⟩ ∧ v.after = u ∧
            ∃ result, runOn (runWithin levels p wiring) s =
                (.ok result, u.noting (.stageFinished vs.length (.aborted 1))) ∧
              result.code = 1 ∧ result.exit = none ∧ result.stdout = "") ∧
          ∀ e u, runOn (Exec.report err (r.complaint fault)) (t.havingOpened front d') =
            (.error e, u) →
            v.result = .error e ∧ v.after = u ∧
            runOn (runWithin levels p wiring) s = (.error e, u) := by
  have hrun : v.Runs (substitutionWithin levels) wiring := visitsFrom_runs hv
  have hmarks : stage.redirections.map Redirection.mark =
      (Redirection.lastOfEach written).map Redirection.mark := by
    rw [expandStage_marks hexp, hwritten, Redirection.foldl_insert_eq_lastOfEach]
  have hordered : Redirection.Ordered stage.redirections :=
    (Redirection.ordered_lastOfEach written).of_marks hmarks
  refine ⟨⟨hordered, hmarks⟩, ?_, ?_⟩
  · -- Either all targets open, or there is a first one that does not.
    rcases Disk.exists_opens t.scene.cwd t.scene.host.disk stage.redirections with
      ⟨opened, d', hall⟩ | hfirst
    · rcases @runOn_openAll_of_opens t {} _ _ _ hall with ⟨files, hopen⟩
      refine .inl ⟨opened, d', files, hall, hall.touched, t, hexp, sound, ?_⟩
      have hdone := hopen []
      rw [List.append_nil] at hdone
      exact hdone
    · exact .inr hfirst
  · intro front r back opened d' fault hrs hfront hfault
    -- The first target that does not open ends the stage, and with it the line.
    have hends := hrun.unopened hexp sound hrs hfront hfault
    rcases visits_eq_append hv hends.not_passed with ⟨vs, hvs⟩
    rw [runWithin_eq_runWith]
    refine ⟨hfront.touched, ?_, hexp.not_ready hrs hfront hfault, hends.stance_eq, hends.disk_eq,
      vs, hvs, ?_, ?_⟩
    · -- Nothing comes before the input in role order, so nothing has been opened before it.
      intro hrole
      rw [hrs] at hordered
      have hnone := hordered.eq_nil_of_stdin hrole
      subst hnone
      cases hfront
      exact ⟨rfl, rfl, rfl⟩
    · intro err' u hreport
      rcases hends.of_said hreport with ⟨hr, rfl⟩
      exact ⟨hr, rfl, _, runOn_runWith_of_aborted hvs hr, rfl, rfl, wiring.stdout_resultOf rfl⟩
    · intro e u hreport
      rcases hends.of_unsaid hreport with ⟨hr, rfl⟩
      exact ⟨hr, rfl, runOn_runWith_of_error hv hr⟩

/-- Redirections as they may be written on a line: error output goes into a directory that does not
exist. -/
def strayTargets : List (Redirection Word) :=
  [⟨.stderr, false, [.text "/no/log"]⟩, ⟨.descriptor "3", false, [.text "/late"]⟩,
    ⟨.stdout, true, [.text "/made"]⟩, ⟨.stdin, false, [.text "/"]⟩]

/-- The command `echo` with these redirections. -/
def echoStray : Command :=
  ⟨[.text "echo"], [], strayTargets.foldl (fun acc r => r.insert acc) []⟩

/-- The disk of a bare session, on which its output file has been made. -/
def diskWithMade : Disk :=
  bareSession.scene.host.disk.add ["made"] (.file {}) Disk.fileMode

theorem opens_made : Disk.Opens "/" bareSession.scene.host.disk
    [⟨.stdin, false, "/"⟩, ⟨.stdout, true, "/made"⟩] [(["made"], true)] diskWithMade := by
  have hroot : bareSession.scene.host.disk.openInput (Path.resolve "/" "/") = .ok ⟨[], 0, false⟩ :=
    rfl
  have hfree : bareSession.scene.host.disk.locate .file (Path.resolve "/" "/made") =
      .ok (.vacant ["made"]) := rfl
  have houtput : Disk.Opens "/" bareSession.scene.host.disk [⟨.stdout, true, "/made"⟩]
    [(["made"], true)]
      diskWithMade :=
    @Disk.Opens.output "/" _ _ _ ⟨.stdout, true, "/made"⟩ [] [] _ (by decide)
      (Disk.openOutput_of_vacant true hfree) .none
  exact .input rfl hroot houtput

theorem refuses_log : diskWithMade.Refuses "/" ⟨.stderr, false, "/no/log"⟩ .notFound := by
  have hmissing : diskWithMade.locate .file (Path.resolve "/" "/no/log") = .error .notFound := rfl
  rw [Disk.Refuses, Disk.openFor_of_ne (by decide), Disk.openOutput, hmissing]
  rfl

/-- Its output file is made although it is written behind the target that cannot be opened, and the
file of the descriptor is not made although it is written before that. -/
theorem early_target_is_made :
    ∃ v ∈ visits (substitutionWithin 64) .captured [echoStray] bareSession,
      v.after.scene.host.disk.body? ["made"] = some (.file {}, Disk.fileMode) ∧
      v.after.scene.host.disk.body? ["late"] = none ∧
      ∃ result t, runOn (runWithin 64 [echoStray] .captured) bareSession = (.ok result, t) ∧
        result.code = 1 := by
  let v : Visit := .of (substitutionWithin 64) .captured echoStray .empty .memory .memory
    (bareSession.noting (.stageStarting 0 1))
  have hv : v ∈ visits (substitutionWithin 64) .captured [echoStray] bareSession :=
    List.mem_cons_self
  -- The targets in the order in which they are opened; the third one cannot be.
  let input : Redirection String := ⟨.stdin, false, "/"⟩
  let output : Redirection String := ⟨.stdout, true, "/made"⟩
  let errors : Redirection String := ⟨.stderr, false, "/no/log"⟩
  let late : Redirection String := ⟨.descriptor "3", false, "/late"⟩
  have hexp : v.Expanded (substitutionWithin 64) .captured ⟨"echo", [],
    [input, output, errors, late]⟩ .memory
      v.before := rfl
  have hsettled :=
    @unopened_target_leaves_rest 64 [echoStray] .captured bareSession v hv strayTargets rfl _ _ _
      hexp rfl
  rcases hsettled.2.2 [input, output] errors [late] _ _ .notFound rfl opens_made refuses_log with
    ⟨htouched, -, -, -, hdisk, vs, -, hsaid, -⟩
  have hlast : v.after.scene.host.disk = diskWithMade := hdisk (by intro handle h; cases h)
  rcases hsaid _ _ (runOn_report_buffer [] _ _) with ⟨-, -, result, hresult, hcode, -⟩
  refine ⟨v, hv, ?_, ?_, result, _, hresult, hcode⟩
  · rw [hlast, htouched.bodies]
    rfl
  · rw [hlast, htouched.bodies]
    rfl

end LineShell
