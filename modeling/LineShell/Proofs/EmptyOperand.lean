import LineShell.Proofs.Removal

/-!
# EmptyOperand — what `rm` does with an empty word

The path of an empty operand is the working directory itself. So `rm` passes it over only if nothing
can be removed there, as when the recursive flag is missing; otherwise the working directory is
removed with all below it. The root cannot be removed itself, but all below it is gone before that
shows.

* `Scene.pathOf_empty` — the path of the empty operand;
* `Disk.Yields`, `removeOne_eq_self_iff` — when an operand takes nothing from the disk;
* `runOn_forOperands_append` — operands in front are treated first;
* `empty_operand_removes_nothing_iff` — when an empty operand is passed over, and what happens
  otherwise;
* `empty_operand_removes_working_directory` — a tree that is lost.
-/

namespace LineShell

open Builtin

/-! ## The path -/

theorem expandHome_empty (home : Option String) : Path.expandHome home "" = "" := by
  cases home <;> rfl

/-- The empty operand stands for the working directory. -/
theorem Scene.pathOf_empty (s : Scene) : s.pathOf "" = Path.resolve s.cwd "" := by
  rw [Scene.pathOf, expandHome_empty]

/-! ## One operand -/

/-- The path names an entry that may be removed, or a root that is not bare. -/
def Disk.Yields (d : Disk) (recursive : Bool) (path : String) : Prop :=
  ∃ route e, d.find .name path = .ok (route, e) ∧
    (e.isDirectory = true → recursive = true ∧
      (route = [] → ∃ below, below ≠ [] ∧ d.get? below ≠ none))

section One

variable {recursive force : Bool} {d : Disk} {path : String} {route : Route} {e : Entry}

/-- What is found is removed, unless it is a directory that is spared. -/
theorem removeOne_of_find (h : d.find .name path = .ok (route, e))
    (hdir : e.isDirectory = true → recursive = true ∧ route ≠ []) :
    removeOne recursive force d path = (d.without route e, .ok ()) := by
  rw [removeOne, Disk.remove_of_find h hdir]

/-- All below the root goes, and then the root is reported. -/
theorem removeOne_of_root (h : d.find .name path = .ok ([], e)) (hdir : e.isDirectory = true) :
    removeOne true force d path = (d.clear, .error .busy) := by
  rw [removeOne, Disk.remove_of_root h hdir]
  rfl

/-- What does not yield is left, with a complaint or, if forced, without. -/
theorem removeOne_of_not_yields (force : Bool) (h : ¬ d.Yields recursive path) :
    (force = true ∧ d.find .name path = .error .notFound ∧
      removeOne recursive force d path = (d, .ok ())) ∨
      ∃ fault, removeOne recursive force d path = (d, .error fault) := by
  rcases removeOne_cases recursive force d path with ⟨route, e, hfind, hdir, -⟩ |
    ⟨hfind, hforce, hone⟩ | ⟨e, hfind, -, hrec, hone⟩ | hfault
  · exact (h ⟨route, e, hfind, fun he => ⟨(hdir he).1, fun hroot => ((hdir he).2 hroot).elim⟩⟩).elim
  · exact .inl ⟨hforce, hfind, hone⟩
  · -- A bare root is all that it was.
    have hbare : d.clear = d := by
      rw [Disk.clear_eq_self_iff]
      intro below hbelow
      by_contra hthere
      exact h ⟨[], e, hfind, fun _ => ⟨hrec, fun _ => ⟨below, hbelow, hthere⟩⟩⟩
    exact .inr ⟨.busy, by rw [hone, hbare]⟩
  · exact .inr hfault

/-- Nothing is taken from the disk if and only if the path names nothing that may be removed. -/
theorem removeOne_eq_self_iff :
    (removeOne recursive force d path).1 = d ↔ ¬ d.Yields recursive path := by
  constructor
  · rintro hself ⟨route, e, hfind, hdir⟩
    by_cases hroot : e.isDirectory = true ∧ route = []
    · rcases hroot with ⟨he, rfl⟩
      rcases hdir he with ⟨rfl, hbelow⟩
      rcases hbelow rfl with ⟨below, hne, hthere⟩
      rw [removeOne_of_root hfind he, Disk.clear_eq_self_iff] at hself
      exact hthere (hself below hne)
    · rw [removeOne_of_find hfind fun he => ⟨(hdir he).1, fun hr => hroot ⟨he, hr⟩⟩] at hself
      have hthere := Disk.get?_of_find hfind
      rw [← hself, Disk.get?_without_self] at hthere
      cases hthere
  · intro h
    rcases removeOne_of_not_yields force h with ⟨-, -, hone⟩ | ⟨fault, hone⟩ <;> rw [hone]

end One

/-! ## Operands behind others -/

/-- How two lots of operands end together. -/
def Completion.both (c c' : Completion) : Completion :=
  if c = .success then c' else .failure

/-- The operands of `rm`, treated in turn. -/
def Options.removing (o : Options) (operands : List String) : Action Completion :=
  forOperands (removeOne o.isRecursive o.isForced) removalReport operands

section Behind

variable {act : Disk → String → Disk × Except Fault Unit} {message : String → Fault → String}
  {d d₁ : Desk} {front back : List String} {operand : String} {fault : Fault} {disk : Disk}

theorem Completion.both_success (c : Completion) : Completion.both .success c = c := by
  rw [both, if_pos rfl]

theorem Completion.both_failure (c : Completion) : Completion.both .failure c = .failure := by
  rw [both, if_neg (by decide)]

theorem Completion.both_of_failure (c : Completion) : c.both .failure = .failure := by
  rw [both, ite_self]

/-- Operands are gone through from left to right, and either part can fail. -/
theorem runOn_forOperands_append (act : Disk → String → Disk × Except Fault Unit)
    (message : String → Fault → String) (front back : List String) (d : Desk) :
    runOn (forOperands act message (front ++ back)) d =
      runOn (do
        let c ← forOperands act message front
        let c' ← forOperands act message back
        return c.both c') d := by
  -- The disk that one operand leaves is the one that the next is tried on, so the desk varies.
  induction front generalizing d with
  | nil =>
      rw [List.nil_append, forOperands, pure_bind]
      simp only [Completion.both_success, bind_pure]
  | cons operand rest ih =>
      rcases hact : act d.disk (d.scene.pathOf operand) with ⟨disk, fault | done⟩
      · rw [List.cons_append, runOn_forOperands_of_error hact, runOn_bind, runOn_bind,
          runOn_forOperands_of_error hact, runOn_bind]
        rcases runOn (Action.complain (message operand fault)) (d.withDisk disk) with ⟨e | done, d₁⟩
        · rfl
        · -- Whatever the operands behind end in, it is failure.
          dsimp only
          rw [runOn_bind, ih d₁, runOn_bind, runOn_bind]
          rcases runOn (forOperands act message rest) d₁ with ⟨e | c, d₂⟩
          · rfl
          · dsimp only [runOn_pure]
            rw [runOn_bind, runOn_bind]
            rcases runOn (forOperands act message back) d₂ with ⟨e | c', d₃⟩
            · rfl
            · simp only [runOn_pure, Completion.both_failure]
      · rw [List.cons_append, runOn_forOperands_of_ok hact, ih, runOn_bind, runOn_bind,
          runOn_forOperands_of_ok hact]

/-- Removing operands goes from left to right. -/
theorem runOn_removing_append (o : Options) (front back : List String) (d : Desk) :
    runOn (o.removing (front ++ back)) d =
      runOn (do
        let c ← o.removing front
        let c' ← o.removing back
        return c.both c') d :=
  runOn_forOperands_append _ _ _ _ _

/-- Whatever comes before an operand that is reported and behind it, the end is failure. -/
theorem runOn_removing_of_error {o : Options} (c : Completion)
    (h : removeOne o.isRecursive o.isForced d.disk (d.scene.pathOf operand) =
      (disk, .error fault)) :
    runOn (do
      let c' ← o.removing (operand :: back)
      return c.both c') d =
      runOn (do
        Action.complain (removalReport operand fault)
        let _ ← o.removing back
        return .failure) (d.withDisk disk) := by
  have hnext : runOn (o.removing (operand :: back)) d =
      runOn (do
        Action.complain (removalReport operand fault)
        let _ ← o.removing back
        return .failure) (d.withDisk disk) := runOn_forOperands_of_error h
  rw [runOn_bind, hnext, runOn_bind]
  rcases runOn (Action.complain (removalReport operand fault)) (d.withDisk disk) with ⟨e | done, d₁⟩
  · rfl
  · dsimp only
    rw [runOn_bind]
    rcases runOn (o.removing back) d₁ with ⟨e | c', d₂⟩
    · rfl
    · simp only [runOn_pure, Completion.both_of_failure]

/-- Operands leave the paths of those behind them as they are. -/
theorem removing_keeps_pathOf {o : Options} :
    Keeps (fun d : Desk => d.scene.pathOf) (o.removing front) := by
  intro d
  rcases exists_treats (removeOne o.isRecursive o.isForced) removalReport front d
    with ⟨verdicts, hcourse⟩
  exact hcourse.spares.pathOf

/-- Removing only takes from the disk. -/
theorem removing_thins {o : Options} (d : Desk) :
    d.disk.Thinned (runOn (o.removing front) d).2.disk := by
  rcases exists_treats (removeOne o.isRecursive o.isForced) removalReport front d
    with ⟨verdicts, hcourse⟩
  exact hcourse.spares.cleared.thinned

end Behind

/-! ## An empty operand among others -/

section Among

variable {args : List String} {stdin : Option Bytes} {d d₁ : Desk} {front back : List String}
  {c : Completion} {disk : Disk} {fault : Fault}

/-- An empty operand stands for the working directory, whatever is in front of it. -/
theorem pathOf_empty_behind {o : Options} (hfront : runOn (o.removing front) d = (.ok c, d₁)) :
    d₁.scene.pathOf "" = Path.resolve d.scene.cwd "" := by
  rw [removing_keeps_pathOf.eq hfront, Scene.pathOf_empty]

variable (hunknown : (rmOptions args).unknown = [])
  (hoperands : (rmOptions args).operands = front ++ "" :: back)
include hunknown hoperands

/-- With the operand empty, what runs is a removal with that operand in its place. -/
theorem rm_eq_removing :
    Builtin.rm args stdin = (rmOptions args).removing (front ++ "" :: back) := by
  rw [rm_eq_forOperands hunknown (by simp [hoperands]), hoperands]
  rfl

/-- If what is in front throws, then that is all. -/
theorem runOn_rm_of_error {e : Error} (hfront : runOn ((rmOptions args).removing front) d =
    (.error e, d₁)) :
    runOn (Builtin.rm args stdin) d = (.error e, d₁) := by
  rw [rm_eq_removing hunknown hoperands, runOn_removing_append, runOn_bind_of_error hfront]

variable (hfront : runOn ((rmOptions args).removing front) d = (.ok c, d₁))
include hfront

/-- Behind those in front, the empty operand is next. -/
theorem runOn_rm_behind :
    runOn (Builtin.rm args stdin) d =
      runOn (do
        let c' ← (rmOptions args).removing ("" :: back)
        return c.both c') d₁ := by
  rw [rm_eq_removing hunknown hoperands, runOn_removing_append, runOn_bind_of_ok hfront]

/-- If nothing is reported of it, then those behind it find the disk as it leaves it. -/
theorem runOn_rm_of_done
    (hone : removeOne (rmOptions args).isRecursive (rmOptions args).isForced d₁.disk
      (Path.resolve d.scene.cwd "") = (disk, .ok ())) :
    runOn (Builtin.rm args stdin) d =
      runOn (do
        let c' ← (rmOptions args).removing back
        return c.both c') (d₁.withDisk disk) := by
  rw [← pathOf_empty_behind hfront] at hone
  have hnext : runOn ((rmOptions args).removing ("" :: back)) d₁ =
      runOn ((rmOptions args).removing back) (d₁.withDisk disk) := runOn_forOperands_of_ok hone
  rw [runOn_rm_behind hunknown hoperands hfront, runOn_bind, hnext, runOn_bind]

/-- If it is reported, then the end is failure. -/
theorem runOn_rm_of_reported
    (hone : removeOne (rmOptions args).isRecursive (rmOptions args).isForced d₁.disk
      (Path.resolve d.scene.cwd "") = (disk, .error fault)) :
    runOn (Builtin.rm args stdin) d =
      runOn (do
        Action.complain (removalReport "" fault)
        let _ ← (rmOptions args).removing back
        return .failure) (d₁.withDisk disk) := by
  rw [← pathOf_empty_behind hfront] at hone
  rw [runOn_rm_behind hunknown hoperands hfront, runOn_removing_of_error c hone]

/-- What goes with the entry of the working directory stays away. -/
theorem get?_rm_of_removed {route route' : Route} {e : Entry}
    (hone : removeOne (rmOptions args).isRecursive (rmOptions args).isForced d₁.disk
      (Path.resolve d.scene.cwd "") = (d₁.disk.without route e, .ok ()))
    (hgone : Disk.GoesWith route e route') :
    (runOn (Builtin.rm args stdin) d).2.disk.get? route' = none := by
  have hlast : (runOn (Builtin.rm args stdin) d).2 =
      (runOn ((rmOptions args).removing back) (d₁.withDisk (d₁.disk.without route e))).2 := by
    rw [runOn_rm_of_done hunknown hoperands hfront hone, runOn_bind]
    rcases runOn ((rmOptions args).removing back) _ with ⟨e | c', d₂⟩ <;> rfl
  rw [hlast]
  refine (removing_thins (d₁.withDisk (d₁.disk.without route e))).missing ?_
  rw [Desk.disk_withDisk, ← Disk.body?_eq_none, Disk.body?_without, if_pos hgone]

/-- What was below the root stays away, too. -/
theorem get?_rm_of_cleared {route : Route}
    (hone : removeOne (rmOptions args).isRecursive (rmOptions args).isForced d₁.disk
      (Path.resolve d.scene.cwd "") = (d₁.disk.clear, .error fault))
    (hroute : route ≠ []) :
    (runOn (Builtin.rm args stdin) d).2.disk.get? route = none := by
  have hspares := (d₁.withDisk d₁.disk.clear).spares_report true (fun _ => False)
    (Utf8.encode (removalReport "" fault ++ "\n"))
  rw [runOn_rm_of_reported hunknown hoperands hfront hone, runOn_bind, Action.complain]
  rcases hsaid : runOn (Action.report (Utf8.encode (removalReport "" fault ++ "\n")))
    (d₁.withDisk d₁.disk.clear) with ⟨e | done, d₂⟩ <;> rw [hsaid] at hspares
  -- A report may change the content of a file, but it makes no entry.
  all_goals have hbare : d₂.disk.get? route = none :=
    hspares.cleared.thinned.missing (Disk.get?_clear_of_ne hroute _)
  · exact hbare
  · have hlast : (runOn (do
        let _ ← (rmOptions args).removing back
        return Completion.failure) d₂).2 = (runOn ((rmOptions args).removing back) d₂).2 := by
      rw [runOn_bind]
      rcases runOn ((rmOptions args).removing back) d₂ with ⟨e | c', d₃⟩ <;> rfl
    dsimp only
    rw [hlast]
    exact (removing_thins d₂).missing hbare

end Among

/-- An empty operand among others takes nothing from the disk if and only if the path of the working
directory names nothing, or a directory without the recursive flag, or a root that is bare. Then it
is passed over: it is reported, or ignored if nothing is there and the force flag is given, and all
else is as without it. Otherwise that entry goes, with all below it, and nothing is reported; but
the root stays when all below it is gone, and that is reported. The operands in front of it come
first, and if one of them has a report that cannot be written, that is all. -/
theorem empty_operand_removes_nothing_iff (args : List String) (stdin : Option Bytes) (d : Desk)
    (front back : List String) (hunknown : (rmOptions args).unknown = [])
    (hoperands : (rmOptions args).operands = front ++ "" :: back) :
    let o := rmOptions args
    let here := Path.resolve d.scene.cwd ""
    (∀ e d₁, runOn (o.removing front) d = (.error e, d₁) →
      runOn (Builtin.rm args stdin) d = (.error e, d₁)) ∧
    ∀ c d₁, runOn (o.removing front) d = (.ok c, d₁) →
      ((removeOne o.isRecursive o.isForced d₁.disk here).1 = d₁.disk ↔
        ¬ d₁.disk.Yields o.isRecursive here) ∧
      (¬ d₁.disk.Yields o.isRecursive here →
        (o.isForced = true ∧ d₁.disk.find .name here = .error .notFound ∧
          runOn (Builtin.rm args stdin) d = runOn (o.removing (front ++ back)) d) ∨
        ∃ fault, runOn (Builtin.rm args stdin) d =
          runOn (do
            let _ ← o.removing front
            Action.complain (removalReport "" fault)
            let _ ← o.removing back
            return .failure) d) ∧
      (∀ route e, d₁.disk.find .name here = .ok (route, e) →
        (e.isDirectory = true → o.isRecursive = true ∧ route ≠ []) →
        runOn (Builtin.rm args stdin) d =
          runOn (do
            let c ← o.removing front
            Action.setDisk (d₁.disk.without route e)
            let c' ← o.removing back
            return c.both c') d ∧
        ∀ route', Disk.GoesWith route e route' →
          (runOn (Builtin.rm args stdin) d).2.disk.get? route' = none) ∧
      ∀ e, d₁.disk.find .name here = .ok ([], e) → e.isDirectory = true → o.isRecursive = true →
        runOn (Builtin.rm args stdin) d =
          runOn (do
            let _ ← o.removing front
            Action.setDisk d₁.disk.clear
            Action.complain (removalReport "" .busy)
            let _ ← o.removing back
            return .failure) d ∧
        ∀ route', route' ≠ [] → (runOn (Builtin.rm args stdin) d).2.disk.get? route' = none := by
  intro o here
  refine ⟨fun e d₁ hfront => runOn_rm_of_error hunknown hoperands hfront, fun c d₁ hfront =>
    ⟨removeOne_eq_self_iff, fun hkept => ?_, fun route e hfind hdir => ?_, fun e hfind hdir hrec =>
      ?_⟩⟩
  · -- What is kept was not there, or there is a reason to keep it.
    rcases removeOne_of_not_yields o.isForced hkept with ⟨hforce, hfind, hone⟩ | ⟨fault, hone⟩
    · refine .inl ⟨hforce, hfind, ?_⟩
      rw [runOn_rm_of_done hunknown hoperands hfront hone, runOn_removing_append,
        runOn_bind_of_ok hfront]
      rfl
    · refine .inr ⟨fault, ?_⟩
      rw [runOn_bind_of_ok hfront]
      exact runOn_rm_of_reported hunknown hoperands hfront hone
  · -- What the operand does to the disk when its turn comes.
    have hone : removeOne o.isRecursive o.isForced d₁.disk here =
      (d₁.disk.without route e, .ok ()) :=
      removeOne_of_find hfind hdir
    refine ⟨?_, fun route' hgone => get?_rm_of_removed hunknown hoperands hfront hone hgone⟩
    rw [runOn_bind_of_ok hfront, runOn_rm_of_done hunknown hoperands hfront hone]
    rfl
  · -- The root stays when all below it is gone, so the operand is reported all the same.
    have hone : removeOne o.isRecursive o.isForced d₁.disk here =
      (d₁.disk.clear, .error .busy) := by
      rw [hrec]
      exact removeOne_of_root hfind hdir
    refine ⟨?_, fun route' hroute => get?_rm_of_cleared hunknown hoperands hfront hone hroute⟩
    rw [runOn_bind_of_ok hfront, runOn_rm_of_reported hunknown hoperands hfront hone]
    rfl

/-- The desk of the linked tree, inside the directory that holds the link. -/
def insideDesk : Desk :=
  { linkedDesk with scene := { linkedDesk.scene with cwd := "/d" } }

/-- In that directory the empty operand leads to the directory itself. -/
theorem find_inside : insideDesk.disk.find .name (Path.resolve insideDesk.scene.cwd "") =
    .ok (["d"], Disk.plainDirectory 0) :=
  rfl

/-- Without the recursive flag the working directory stays, and the operand behind is treated as it
would be. -/
theorem empty_operand_is_reported_before_others :
    (removeOne false false insideDesk.disk (Path.resolve insideDesk.scene.cwd "")).1 =
    insideDesk.disk ∧
      ∃ fault, runOn (Builtin.rm ["", "/f"] none) insideDesk =
        runOn (do
          let _ ← (rmOptions ["", "/f"]).removing []
          Action.complain (removalReport "" fault)
          let _ ← (rmOptions ["", "/f"]).removing ["/f"]
          return .failure) insideDesk := by
  have hoptions : rmOptions ["", "/f"] = { operands := [] ++ "" :: ["/f"] } := by decide
  rcases empty_operand_removes_nothing_iff ["", "/f"] none insideDesk [] ["/f"] (by rw [hoptions])
    (by rw [hoptions]) with ⟨-, hturn⟩
  rcases hturn .success insideDesk rfl with ⟨hiff, hpassed, -⟩
  have hkept : ¬ insideDesk.disk.Yields (rmOptions ["", "/f"]).isRecursive
      (Path.resolve insideDesk.scene.cwd "") := by
    rintro ⟨route, e, hfind, hdir⟩
    cases find_inside.symm.trans hfind
    have hrecursive := (hdir rfl).1
    rw [hoptions] at hrecursive
    cases hrecursive
  refine ⟨?_, ?_⟩
  · have hself := hiff.2 hkept
    rw [hoptions] at hself
    exact hself
  · rcases hpassed hkept with ⟨-, hgone, -⟩ | hfault
    · cases find_inside.symm.trans hgone
    · exact hfault

/-- With the flags `-rf` and an empty word, the working directory goes with all below it, and that
counts as success. -/
theorem empty_operand_removes_working_directory :
    rmOptions ["-rf", ""] = { flags := ["-r", "-f"], operands := [""] } ∧
      insideDesk.disk.get? ["d", "l"] = some ⟨.link "/f", 0o777, 0⟩ ∧
      ∃ d', runOn (Builtin.rm ["-rf", ""] none) insideDesk = (.ok .success, d') ∧ d'.err = .memory ∧
        d'.disk.get? ["d"] = none ∧ d'.disk.get? ["d", "l"] = none := by
  have hoptions : rmOptions ["-rf", ""] = { flags := ["-r", "-f"], operands := [""] } := by decide
  refine ⟨hoptions, rfl, insideDesk.withDisk
    (insideDesk.disk.without ["d"] (Disk.plainDirectory 0)), ?_, rfl, ?_, ?_⟩
  · have hone : removeOne true true insideDesk.disk (insideDesk.scene.pathOf "") =
        (insideDesk.disk.without ["d"] (Disk.plainDirectory 0), .ok ()) := by
      rw [Scene.pathOf_empty]
      exact removeOne_of_find find_inside fun _ => ⟨rfl, List.cons_ne_nil _ _⟩
    rw [rm_eq_forOperands (by rw [hoptions]) (by simp [hoptions]), hoptions]
    exact runOn_forOperands_of_ok hone
  · rw [Desk.disk_withDisk, Disk.get?_without_self]
  · rw [Desk.disk_withDisk, ← Disk.body?_eq_none, Disk.body?_without,
      if_pos (.inr ⟨rfl, by decide⟩)]

end LineShell
