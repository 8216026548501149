import LineShell.Proofs.Removal
import LineShell.Proofs.Sections

/-!
# Blocks — listings of several targets

Of several targets, each that is there has a block with its header, and each that is not has a
complaint. An empty line follows each block but that of the last target, even if no block comes
after it.

* `block?`, `blocks` — what is printed of the targets that are there;
* `out_report` — the blocks with the empty lines between them, and behind them;
* `View.Readable`, `complaints_report` — one complaint for each target that is not there;
* `runOn_announce` — what arrives, and the status;
* `blocks_stand_apart_iff` — all of it for `ls`.
-/

namespace LineShell
namespace Listing

/-! ## Targets -/

/-- The complaint about a target that is not there. -/
def missing? (f : Frame) (t : String × String) : Option String :=
  match f.view.look t.2 with
  | .ok _ => none
  | .error fault => some ("ls: cannot access '" ++ t.1 ++ "': " ++ fault.describe)

def block? (f : Frame) (t : String × String) : Option Report :=
  (f.view.look t.2).toOption.map (reportOn f true t.1 t.2)

def blocks (f : Frame) (targets : List (String × String)) : List Report :=
  targets.filterMap (block? f)

/-- Whether the last one of the targets is not there. -/
def missesLast (f : Frame) (targets : List (String × String)) : Bool :=
  targets.getLast?.any fun t => (block? f t).isNone

section Targets

variable {f : Frame} {path : String} {t : String × String} {targets : List (String × String)}

/-- A block starts with the header of its target. -/
theorem exists_out_reportOn (f : Frame) (raw path : String) (e : Entry) :
    ∃ rest, (reportOn f true raw path e).out = raw ++ ":\n" ++ rest := by
  rw [reportOn]
  split
  · cases f.levels with
    | zero =>
        rw [tree_zero]
        exact ⟨_, rfl⟩
    | succ levels =>
        rw [tree_succ]
        exact ⟨_, String.append_assoc⟩
  · exact ⟨_, rfl⟩

/-- A target with a block prints it, with an empty line behind it if targets follow. -/
theorem report_cons_of_block {b : Report} (h : block? f t = some b)
    (rest : List (String × String)) :
    report f true (t :: rest) =
      (b.append ⟨if rest.isEmpty then "" else "\n", []⟩).append (report f true rest) := by
  rw [block?] at h
  cases hlook : f.view.look t.2 with
  | error fault => rw [hlook] at h; cases h
  | ok e =>
      rw [hlook] at h
      cases h
      rw [report, target_of_entry hlook]
      cases rest <;> rfl

/-- A target that is missing only adds its complaint. -/
theorem report_cons_of_missing (h : block? f t = none) (rest : List (String × String)) :
    report f true (t :: rest) = Report.append ⟨"", (missing? f t).toList⟩ (report f true rest) := by
  rw [block?] at h
  cases hlook : f.view.look t.2 with
  | ok e => rw [hlook] at h; cases h
  | error fault =>
      rw [report, target_of_fault hlook, missing?, hlook]
      rfl

theorem missesLast_cons {rest : List (String × String)} (h : rest ≠ []) :
    missesLast f (t :: rest) = missesLast f rest := by
  rw [missesLast, List.getLast?_cons_of_ne_nil h, missesLast]

/-- Where no target has a block, the last one has none. -/
theorem missesLast_of_blocks_eq_nil (hne : targets ≠ []) (h : blocks f targets = []) :
    missesLast f targets = true := by
  have hmissing : block? f (targets.getLast hne) = none :=
    List.filterMap_eq_nil_iff.1 h _ (List.getLast_mem hne)
  simp [missesLast, List.getLast?_eq_some_getLast hne, hmissing]

/-- An empty line follows each block but that of the last target. So there is one between any two
blocks, and one behind the last block if the last target is not there. -/
theorem out_report (f : Frame) (targets : List (String × String)) :
    (report f true targets).out = "\n".intercalate ((blocks f targets).map Report.out) ++
      if blocks f targets ≠ [] ∧ missesLast f targets = true then "\n" else "" := by
  induction targets with
  | nil => rfl
  | cons t rest ih =>
      cases hblock : block? f t with
      | none =>
          have hblocks : blocks f (t :: rest) = blocks f rest := by simp [blocks, hblock]
          rw [report_cons_of_missing hblock, Report.append, ih, hblocks, String.empty_append]
          cases rest with
          | nil => rfl
          | cons next more => rw [missesLast_cons (List.cons_ne_nil _ _)]
      | some b =>
          have hblocks : blocks f (t :: rest) = b :: blocks f rest := by simp [blocks, hblock]
          rw [report_cons_of_block hblock, hblocks]
          change b.out ++ (if rest.isEmpty then "" else "\n") ++ (report f true rest).out = _
          rw [ih]
          by_cases hrest : rest = []
          · subst hrest
            simp [blocks, missesLast, hblock]
          · rw [missesLast_cons hrest, List.map_cons]
            -- If no block follows, the empty line behind this one is the one behind the last block.
            by_cases hnone : blocks f rest = []
            · simp [hnone, hrest, missesLast_of_blocks_eq_nil hrest hnone]
            · have hmap : (blocks f rest).map Report.out ≠ [] := by simpa using hnone
              simp [String.intercalate_cons_of_ne_nil hmap, hrest, hnone, String.append_assoc]

/-- The empty line behind the last block is missing if and only if there is no block or the last
target is there. -/
theorem out_report_eq_iff (f : Frame) (targets : List (String × String)) :
    (report f true targets).out = "\n".intercalate ((blocks f targets).map Report.out) ↔
      blocks f targets = [] ∨ missesLast f targets = false := by
  rw [out_report, String.append_eq_left_iff]
  by_cases hnone : blocks f targets = []
  · simp [hnone]
  · cases missesLast f targets <;> simp [hnone]

end Targets

/-! ## Complaints -/

/-- All directories that can be seen can be read. -/
def View.Readable (v : View) : Prop :=
  ∀ path e, v.look path = .ok e → e.isDirectory = true → ∃ names, v.names path = .ok names

section Complaints

variable {f : Frame} {path : String} {e : Entry}

theorem readable_view (d : Disk) : d.view.Readable := by
  intro path e hlook hdir
  change (d.find .name path).map Prod.snd = .ok e at hlook
  cases hfind : d.find .name path with
  | error fault => rw [hfind] at hlook; cases hlook
  | ok place =>
      rw [hfind] at hlook
      cases hlook
      exact ⟨_, Disk.names_of_find (Disk.find_entry_of_find_name hfind hdir) hdir⟩

/-- No readable directory is complained about. -/
theorem complaintAt_eq_none (hread : f.view.Readable) (hlook : f.view.look path = .ok e)
    (hdir : e.isDirectory = true) (header : String) : complaintAt f path header = none := by
  rcases hread path e hlook hdir with ⟨names, hnames⟩
  rw [complaintAt, hnames]

/-- If all directories can be read, there is nothing to complain about in a directory. -/
theorem complaints_tree (hread : f.view.Readable) (hlook : f.view.look path = .ok e)
    (hdir : e.isDirectory = true) (titled : Bool) (levels : Nat) (header : String) :
    (tree f titled levels path header).complaints = [] := by
  induction levels generalizing titled path header e with
  | zero => rw [tree_zero, sectionAt, complaintAt_eq_none hread hlook hdir]; rfl
  | succ levels ih =>
      rw [tree_succ, sectionAt, complaintAt_eq_none hread hlook hdir]
      change [] ++ (Report.concat _).complaints = []
      rw [List.nil_append, Report.complaints_concat, List.flatMap_eq_nil_iff]
      intro r hr
      rcases List.mem_map.1 hr with ⟨item, hitem, rfl⟩
      rcases exists_look_of_mem_belowAt hitem with ⟨e', hlook', hdir'⟩
      exact ih hlook' hdir' true (childHeader header item.name)

/-- A report on a readable entry has no complaints. -/
theorem complaints_reportOn (hread : f.view.Readable) (hlook : f.view.look path = .ok e)
    (titled : Bool) (raw : String) : (reportOn f titled raw path e).complaints = [] := by
  rw [reportOn]
  split
  next hdir => exact complaints_tree hread hlook hdir titled f.levels raw
  next => rfl

/-- If all directories can be read, there is one complaint for each target that is not there, and no
other. -/
theorem complaints_report (hread : f.view.Readable) (targets : List (String × String)) :
    (report f true targets).complaints = targets.filterMap (missing? f) := by
  induction targets with
  | nil => rfl
  | cons t rest ih =>
      rw [List.filterMap_cons]
      cases hlook : f.view.look t.2 with
      | error fault =>
          have hblock : block? f t = none := by rw [block?, hlook]; rfl
          rw [report_cons_of_missing hblock, Report.append, ih, missing?, hlook]
          rfl
      | ok e =>
          have hblock : block? f t = some (reportOn f true t.1 t.2 e) := by rw [block?, hlook]; rfl
          rw [report_cons_of_block hblock, missing?, hlook]
          change (reportOn f true t.1 t.2 e).complaints ++ [] ++ (report f true rest).complaints = _
          rw [complaints_reportOn hread hlook, ih]
          rfl

end Complaints

/-! ## The command -/

/-- Both outputs of a desk are kept in memory. -/
structure Captured (d : Desk) (out err : Bytes) : Prop where
  out : d.out = .buffer out
  err : d.err = .buffer err

/-- To announce a report is to print its text, complain of its complaints and fail if there are any.
-/
theorem runOn_announce {d : Desk} {out err : Bytes} (h : Captured d out err) (r : Report) :
    runOn (announce r) d =
      (.ok (if r.complaints.isEmpty then .success else .failure),
        { d with
          out := .buffer (out ++ Utf8.encode r.out)
          err := .buffer (err ++ Utf8.encode (String.join (r.complaints.map (· ++ "\n")))) }) := by
  rcases d with ⟨scene, o, b⟩
  rcases h with ⟨hout, herr⟩
  cases hout
  cases herr
  rw [announce, runOn_bind_of_ok (show runOn (Action.print (Utf8.encode r.out)) _ =
    (.ok (), _) from rfl)]
  cases hcomplaints : r.complaints with
  | nil => simp [Utf8.encode]
  | cons first rest => rfl

/-- Of several targets, `ls` makes their report. -/
theorem reportOf_several {view : Disk → View} {args : List String} {d : Desk}
    (h : 1 < (targetsOf args).length) :
    reportOf view args d =
      report (frameOf view args d) true ((targetsOf args).map fun raw =>
        (raw, d.scene.pathOf raw)) := by
  rw [reportOf, decide_eq_true h]

end Listing

open Listing

/-- `ls` of several targets prints the blocks of those that are there, each with its header, in
order and with an empty line between any two. Behind the last block there is another empty line if
the last target is not there, and none otherwise. If all directories can be read, there is one
complaint for each target that is not there, in order, and it is a failure if there is one. -/
theorem blocks_stand_apart_iff (view : Disk → View) (args : List String) (stdin : Option Bytes)
    (d : Desk) (hknown : ∀ flag ∈ flagsIn args, knows flag = true)
    (hseveral : 1 < (targetsOf args).length) :
    let f := frameOf view args d
    let targets := (targetsOf args).map fun raw => (raw, d.scene.pathOf raw)
    ∃ shown : Report,
      runOn (Builtin.lsThrough view args stdin) d = runOn (announce shown) d ∧
      (∀ out err, Captured d out err → runOn (Builtin.lsThrough view args stdin) d =
        (.ok (if shown.complaints.isEmpty then .success else .failure),
          { d with
            out := .buffer (out ++ Utf8.encode shown.out)
            err := .buffer (err ++ Utf8.encode
              (String.join (shown.complaints.map (· ++ "\n")))) })) ∧
      (shown.out = "\n".intercalate ((blocks f targets).map Report.out) ++
        if blocks f targets ≠ [] ∧ missesLast f targets = true then "\n" else "") ∧
      (shown.out = "\n".intercalate ((blocks f targets).map Report.out) ↔
        blocks f targets = [] ∨ missesLast f targets = false) ∧
      (∀ t ∈ targets, ∀ b, block? f t = some b → ∃ rest, b.out = t.1 ++ ":\n" ++ rest) ∧
      (f.view.Readable → shown.complaints = targets.filterMap (missing? f)) := by
  intro f targets
  have hrun : runOn (Builtin.lsThrough view args stdin) d =
    runOn (announce (report f true targets)) d := by
    rw [runOn_lsThrough hknown, reportOf_several hseveral]
  refine ⟨report f true targets, hrun, fun out err hcaptured => ?_, out_report f targets,
    out_report_eq_iff f targets, fun t _ b hblock => ?_, fun hread =>
    complaints_report hread targets⟩
  · rw [hrun, runOn_announce hcaptured]
  · rcases Option.map_eq_some_iff.1 hblock with ⟨e, -, rfl⟩
    exact exists_out_reportOn f t.1 t.2 e

/-- A target that is not there, between two that are, leaves no trace in what is printed. -/
theorem missing_target_between_others_leaves_no_gap :
    runOn (Builtin.ls ["f", "nope", "f"] none) linkedDesk =
      (.ok .failure,
        { linkedDesk with
          out := .buffer (Utf8.encode "f:\nf\n\nf:\nf\n")
          err := .buffer (Utf8.encode
            "ls: cannot access 'nope': No such file or directory\n") }) := by
  rcases blocks_stand_apart_iff Disk.view ["f", "nope", "f"] none linkedDesk (by decide) (by decide)
    with ⟨shown, -, hcaptured, -, hout, -, hcomplaints⟩
  have hcomplaint : shown.complaints = ["ls: cannot access 'nope': No such file or directory"] :=
    hcomplaints (readable_view _)
  have hshown : shown.out = "f:\nf\n\nf:\nf\n" := hout.2 (.inr rfl)
  rw [Builtin.ls, hcaptured [] [] ⟨rfl, rfl⟩, hcomplaint, hshown]
  rfl

/-- If the last target is not there, an empty line stands behind the last block. -/
theorem missing_last_target_leaves_empty_line :
    let f := frameOf Disk.view ["f", "nope"] linkedDesk
    let targets := ["f", "nope"].map fun raw => (raw, linkedDesk.scene.pathOf raw)
    runOn (Builtin.ls ["f", "nope"] none) linkedDesk =
        (.ok .failure,
          { linkedDesk with
            out := .buffer (Utf8.encode "f:\nf\n\n")
            err := .buffer (Utf8.encode
              "ls: cannot access 'nope': No such file or directory\n") }) ∧
      (blocks f targets).map Report.out = ["f:\nf\n"] ∧
      Utf8.encode "f:\nf\n\n" ≠
        Utf8.encode ("\n".intercalate ((blocks f targets).map Report.out)) := by
  intro f targets
  have hblocks : (blocks f targets).map Report.out = ["f:\nf\n"] := by rfl
  refine ⟨by rfl, hblocks, ?_⟩
  rw [hblocks]
  decide

end LineShell
