import LineShell.Proofs.Removal

/-!
# Diversion — builtins that write to a file instead of memory

A builtin of the standard table does not touch its output at all, or it writes to it once, before
anything else it does. So it does the same whether its output is kept in memory or goes to a file
that it does not use otherwise, and what memory would hold in the end is then found at the end of
the file.

* `Mute` — actions that do not touch their output;
* `standard_output` — the builtins of the standard table are mute or write once;
* `Host.Diverts` — hosts that differ at one file only;
* `Sink.write_diverts` — a write elsewhere does the same on both;
* `standard_diverted` — what becomes of a builtin whose output is diverted to a file.
-/

namespace LineShell

open Builtin

/-! ## Actions without output -/

/-- The action does not touch its output, and its errors go where they went. -/
structure Mute {α : Type} (x : Action α) : Prop where
  out : ∀ (d : Desk) (out : Sink), runOn x { d with out } =
    ((runOn x d).1, { (runOn x d).2 with out })
  err : Keeps (fun d : Desk => d.err.route?) x

section Mute

variable {α β : Type}

namespace Mute

theorem pure (a : α) : Mute (Pure.pure a) :=
  ⟨fun _ _ => rfl, .pure a⟩

theorem bind {x : Action α} {f : α → Action β} (hx : Mute x) (hf : ∀ a, Mute (f a)) :
    Mute (x >>= f) := by
  refine ⟨fun d out => ?_, .bind hx.err fun a => (hf a).err⟩
  rw [runOn_bind, hx.out d out, runOn_bind]
  rcases runOn x d with ⟨e | a, d₁⟩
  · rfl
  · exact (hf a).out d₁ out

/-- A mute action leaves the output as it is. -/
theorem keeps_out {x : Action α} (hx : Mute x) : Keeps Desk.out x :=
  fun d => congrArg (fun r => r.2.out) (hx.out d d.out)

theorem ite {c : Prop} [Decidable c] {x y : Action α} (hx : Mute x) (hy : Mute y) :
    Mute (if c then x else y) := by
  split
  · exact hx
  · exact hy

end Mute

theorem scene_mute : Mute Action.scene :=
  ⟨fun _ _ => rfl, fun _ => rfl⟩

/-- A change of the scene is mute. -/
theorem modify_scene_mute (f : Scene → Scene) :
    Mute (modify fun d : Desk => { d with scene := f d.scene }) :=
  ⟨fun _ _ => rfl, fun _ => rfl⟩

theorem setDisk_mute (disk : Disk) : Mute (Action.setDisk disk) :=
  modify_scene_mute fun s => { s with host := { s.host with disk } }

theorem modifyEnv_mute (f : Environment → Environment) : Mute (Action.modifyEnv f) :=
  modify_scene_mute fun s => { s with env := f s.env }

theorem note_mute (event : Log.Event) : Mute (Action.note event) :=
  modify_scene_mute fun s => s.noting event

/-- A report does not turn the errors to another file. -/
theorem report_keeps_route (bs : Bytes) : Keeps (fun d : Desk => d.err.route?) (Action.report bs) :=
  fun d => (d.spares_report false (fun _ => False) bs).err

theorem report_mute (bs : Bytes) : Mute (Action.report bs) := by
  refine ⟨fun d out => ?_, report_keeps_route bs⟩
  rw [Action.report, runOn_bind_of_ok (runOn_get _), runOn_bind_of_ok (runOn_get d)]
  rcases d.err.write bs d.scene.host with ⟨err, host, fault | done⟩ <;> rfl

theorem complain_mute (text : String) : Mute (Action.complain text) :=
  report_mute _

theorem complaint_mute (text : String) (c : Completion) :
    Mute (do
      Action.complain text
      return c) :=
  .bind (complain_mute text) fun _ => .pure c

theorem forOperands_mute (act : Disk → String → Disk × Except Fault Unit)
    (message : String → Fault → String) (operands : List String) :
    Mute (forOperands act message operands) := by
  induction operands with
  | nil => exact .pure _
  | cons operand rest ih =>
      refine .bind scene_mute fun s => .bind (setDisk_mute _) fun _ => ?_
      split
      · exact ih
      · exact .bind (complain_mute _) fun _ => .bind ih fun _ => .pure _

/-- Options are read without a print, so only what runs with them can print. -/
theorem withOptions_mute {command missing : String} {known : String → Bool} {args : List String}
    {run : Options → Action Completion} (h : ∀ o, Mute (run o)) :
    Mute (withOptions command missing known args run) :=
  .ite (complaint_mute _ _) (.ite (complaint_mute _ _) (h _))

theorem exportAll_mute (args : List String) : Mute (exportAll args) := by
  induction args with
  | nil => exact .pure _
  | cons arg rest ih =>
      exact .ite (.bind (modifyEnv_mute _) fun _ => ih) (.bind (complain_mute _) fun _ =>
        .bind ih fun _ => .pure _)

theorem unsetAll_mute (args : List String) : Mute (unsetAll args) := by
  induction args with
  | nil => exact .pure _
  | cons arg rest ih =>
      refine .ite (.bind scene_mute fun s => .bind (modifyEnv_mute _) fun _ => ?_)
        (.bind (complain_mute _) fun _ => .bind ih fun _ => .pure _)
      exact .ite (.bind (note_mute _) fun _ => ih) ih

theorem cdTo_mute (shown path : String) : Mute (cdTo shown path) := by
  refine .bind scene_mute fun s => ?_
  split
  · refine .ite (.bind (note_mute _) fun _ => .bind ?_ fun _ => .pure _) (complaint_mute _ _)
    exact modify_scene_mute fun s => { s with cwd := path }
  · exact complaint_mute _ _

theorem cd_mute (args : List String) (stdin : Option Bytes) : Mute (cd args stdin) := by
  refine .bind scene_mute fun s => ?_
  split
  · exact cdTo_mute _ _
  · exact cdTo_mute _ _
  · exact complaint_mute _ _

end Mute

/-! ## Builtins that write once -/

/-- The action has nothing more to do than to end, perhaps after a report. -/
inductive Closes : Action Completion → Prop where
  | ending (c : Completion) : Closes (pure c)
  | reporting (bs : Bytes) (c : Completion) : Closes (do
      Action.report bs
      return c)

/-- At a desk whose output is not a terminal, the action writes a text that depends on the scene
only, and closes. -/
def PrintsOnce (x : Action Completion) : Prop :=
  ∃ (text : Scene → Bytes) (rest : Scene → Action Completion), (∀ s, Closes (rest s)) ∧
    ∀ d : Desk, d.out.isTerminal d.scene.host = false →
      runOn x d = runOn (do
        Action.print (text d.scene)
        rest d.scene) d

theorem pwd_printsOnce (args : List String) (stdin : Option Bytes) : PrintsOnce (pwd args stdin) :=
  ⟨fun s => Utf8.encode (s.cwd ++ "\n"), fun _ => return .success, fun _ => .ending _, fun _ _ =>
    rfl⟩

theorem echo_printsOnce (args : List String) (stdin : Option Bytes) :
    PrintsOnce (echo args stdin) :=
  ⟨fun _ => Echo.output args, fun _ => return .success, fun _ => .ending _, fun _ _ => rfl⟩

theorem env_printsOnce (args : List String) (stdin : Option Bytes) :
    PrintsOnce (env args stdin) := by
  refine ⟨fun s => Utf8.encode (String.join (s.env.pairs.map fun v => envLine false s.env v.1 v.2 ++
    "\n")), fun _ => return .success, fun _ => .ending _, fun d hterminal => ?_⟩
  rw [env, runOn_bind_of_ok (runOn_get d)]
  simp only [hterminal, Bool.false_and]

/-- `ls` refuses unknown flags, or it prints its listing. -/
theorem ls_output (args : List String) (stdin : Option Bytes) :
    Mute (ls args stdin) ∨ PrintsOnce (ls args stdin) := by
  -- Away from a terminal the listing is the same, whatever the output is.
  let request := Listing.Request.read {} args
  let targets := if request.targets.isEmpty then ["."] else request.targets
  let listing := fun s : Scene => Listing.report
    ⟨request.settings, s.host.disk.view, false, s.host.disk.depth⟩ (1 < targets.length)
    (targets.map fun raw => (raw, s.pathOf raw))
  cases hunknown : request.unknown.isEmpty with
  | false =>
      refine .inl ?_
      rw [ls]
      change Mute (if !request.unknown.isEmpty then _ else _)
      rw [hunknown]
      exact complaint_mute _ _
  | true =>
      refine .inr ⟨fun s => Utf8.encode (listing s).out, fun s => if (listing s).complaints.isEmpty
        then return .success else do
          Action.report (Utf8.encode (String.join ((listing s).complaints.map (· ++ "\n"))))
          return .failure, fun s => ?_, fun d hterminal => ?_⟩
      · dsimp only
        split
        · exact .ending _
        · exact .reporting _ _
      · rw [ls]
        change runOn (if !request.unknown.isEmpty then _ else _) d = _
        rw [hunknown]
        change runOn (get >>= _) d = _
        rw [runOn_bind_of_ok (runOn_get d)]
        simp only [hterminal, Bool.false_and]
        rfl

/-- A builtin of the standard table does not touch its output, or it writes to it once, first of
all. -/
theorem standard_output {name : String} {b : Builtin} (h : Builtin.standard.lookup name = some b)
    (args : List String) (stdin : Option Bytes) :
    Mute (b args stdin) ∨ PrintsOnce (b args stdin) := by
  rcases List.lookup_eq_some_iff.1 h with ⟨before, after, htable, -⟩
  have hmem : (name, b) ∈ Builtin.standard := by simp [htable]
  simp only [Builtin.standard, List.mem_cons, Prod.mk.injEq, List.not_mem_nil, or_false] at hmem
  rcases hmem with ⟨-, rfl⟩ | ⟨-, rfl⟩ | ⟨-, rfl⟩ | ⟨-, rfl⟩ | ⟨-, rfl⟩ | ⟨-, rfl⟩ | ⟨-, rfl⟩ |
    ⟨-, rfl⟩ | ⟨-, rfl⟩ | ⟨-, rfl⟩ | ⟨-, rfl⟩ | ⟨-, rfl⟩ | ⟨-, rfl⟩
  · exact .inl (cd_mute args stdin)
  · exact .inr (pwd_printsOnce args stdin)
  · exact ls_output args stdin
  · exact .inl (withOptions_mute fun _ => forOperands_mute _ _ _)
  · exact .inl (withOptions_mute fun _ => forOperands_mute _ _ _)
  · exact .inl (withOptions_mute fun _ => forOperands_mute _ _ _)
  · exact .inr (echo_printsOnce args stdin)
  · exact .inl (exportAll_mute args)
  · exact .inl (unsetAll_mute args)
  · exact .inr (env_printsOnce args stdin)
  · exact .inl (.pure _)
  · exact .inl (.pure _)
  · exact .inl (.pure _)

/-! ## Hosts that differ at a file -/

/-- The hosts are the same but for the file at a route and the times on the disk. -/
structure Host.Diverts (f : Route) (h h' : Host) : Prop where
  rest : h' = { h with disk := h'.disk }
  bodies : ∀ route, route ≠ f → h'.disk.body? route = h.disk.body? route

section Diverts

variable {f : Route} {d d' : Disk} {h h' : Host} {handle : Handle} {bs : Bytes} {sink : Sink}

/-- What writing does to a disk is seen at the file that is written to. -/
theorem Disk.write_of_body (hbody : d'.body? handle.route = d.body? handle.route) (bs : Bytes) :
    (∃ fault, d.write handle bs = .error fault ∧ d'.write handle bs = .error fault) ∨
    ∃ e e' handle₁, d.write handle bs = .ok (e, handle₁) ∧ d'.write handle bs = .ok (e', handle₁) ∧
      e'.body? handle.route = e.body? handle.route ∧
      ∀ route, route ≠ handle.route → e.body? route = d.body? route ∧
        e'.body? route = d'.body? route := by
  unfold Disk.write
  split
  · exact .inr ⟨d, d', handle, rfl, rfl, hbody, fun _ _ => ⟨rfl, rfl⟩⟩
  -- What a write does depends on the node at the route only, which is the same on both disks. The
  -- times may differ.
  cases hget : d.get? handle.route with
  | none =>
      rw [Disk.body?_eq_none.2 hget, Disk.body?_eq_none] at hbody
      rw [hbody]
      exact .inr ⟨d, d', _, rfl, rfl, by rw [Disk.body?_eq_none.2 hget, Disk.body?_eq_none.2 hbody],
        fun _ _ => ⟨rfl, rfl⟩⟩
  | some e =>
      have hsame := hbody
      rw [Disk.body?, Disk.body?, hget, Option.map_some, Option.map_eq_some_iff] at hsame
      rcases hsame with ⟨e', hget', heq⟩
      rcases e with ⟨node, mode, modified⟩
      rcases e' with ⟨node', mode', modified'⟩
      cases heq
      rw [hget']
      cases node with
      | file content =>
          refine .inr ⟨_, _, _, rfl, rfl, ?_, fun route hne => ⟨?_, ?_⟩⟩
          · rw [Disk.body?_stamp, Disk.body?_stamp, Disk.body?_set, Disk.body?_set, if_pos rfl,
              if_pos rfl]
            rfl
          · rw [Disk.body?_stamp, Disk.body?_set, if_neg (Ne.symm hne)]
          · rw [Disk.body?_stamp, Disk.body?_set, if_neg (Ne.symm hne)]
      | device device =>
          cases device with
          | null => exact .inr ⟨d, d', _, rfl, rfl, hbody, fun _ _ => ⟨rfl, rfl⟩⟩
          | full => exact .inl ⟨.noSpace, rfl, rfl⟩
      | directory => exact .inr ⟨d, d', _, rfl, rfl, hbody, fun _ _ => ⟨rfl, rfl⟩⟩
      | link target => exact .inr ⟨d, d', _, rfl, rfl, hbody, fun _ _ => ⟨rfl, rfl⟩⟩

/-- A write that does not go to the file does the same on both hosts, and leaves the file alone. -/
theorem Sink.write_diverts (hd : Host.Diverts f h h') (hsink : sink.route? ≠ some f) (bs : Bytes) :
    ∃ sink₁ h₁ h₁' r, sink.write bs h = (sink₁, h₁, r) ∧ sink.write bs h' = (sink₁, h₁', r) ∧
      Host.Diverts f h₁ h₁' ∧ h₁'.disk.body? f = h'.disk.body? f := by
  rcases hd with ⟨hrest, hbodies⟩
  rcases h' with ⟨disk', stdin', stdout', stderr', colors', home'⟩
  cases hrest
  cases sink with
  | stdout => exact ⟨_, _, _, _, rfl, rfl, ⟨rfl, hbodies⟩, rfl⟩
  | stderr => exact ⟨_, _, _, _, rfl, rfl, ⟨rfl, hbodies⟩, rfl⟩
  | buffer bytes => exact ⟨_, _, _, _, rfl, rfl, ⟨rfl, hbodies⟩, rfl⟩
  | file handle =>
      -- The file that is written to is another one, so it is the same on both disks, before and
      -- after.
      have hne : handle.route ≠ f := fun heq => hsink (congrArg some heq)
      rcases Disk.write_of_body (hbodies handle.route hne) bs with
        ⟨fault, hw, hw'⟩ | ⟨e, e', handle₁, hw, hw', hsame, hother⟩
      · refine ⟨.file handle, h, { h with disk := disk' }, .error fault, ?_, ?_, ⟨rfl, hbodies⟩,
          rfl⟩
        · rw [Sink.write, hw]
        · rw [Sink.write, hw']
      · refine ⟨.file handle₁, { h with disk := e }, { h with disk := e' }, .ok (), ?_, ?_,
          ⟨rfl, ?_⟩, (hother f (Ne.symm hne)).2⟩
        · rw [Sink.write, hw]
        · rw [Sink.write, hw']
        · intro route hroute
          by_cases heq : route = handle.route
          · rw [heq]
            exact hsame
          · exact ((hother route heq).2.trans (hbodies route hroute)).trans
              (hother route heq).1.symm

end Diverts

/-! ## Builtins at two desks -/

/-- Two desks with the same errors, and with hosts that differ at the file `f` only. -/
structure Desk.Diverts (f : Route) (d d' : Desk) : Prop where
  scene : d'.scene = { d.scene with host := d'.scene.host }
  host : Host.Diverts f d.scene.host d'.scene.host
  err : d'.err = d.err

section Desks

variable {f : Route} {d d' : Desk} {handle : Handle} {content : Content} {mode : Nat} {bs : Bytes}

/-- A report that does not go to the file is the same at both desks. -/
theorem Desk.Diverts.report (h : Desk.Diverts f d d') (herr : d.err.route? ≠ some f) (bs : Bytes) :
    (runOn (Action.report bs) d').1 = (runOn (Action.report bs) d).1 ∧
      Desk.Diverts f (runOn (Action.report bs) d).2 (runOn (Action.report bs) d').2 ∧
      (runOn (Action.report bs) d').2.disk.body? f = d'.disk.body? f := by
  rcases d with ⟨⟨env, cwd, host, journal⟩, out, err⟩
  rcases d' with ⟨⟨env', cwd', host', journal'⟩, out', err'⟩
  rcases h with ⟨hscene, hhost, hsame⟩
  cases hscene
  cases hsame
  rcases Sink.write_diverts hhost herr bs with ⟨err₁, h₁, h₁', r, hw, hw', hd, hkept⟩
  simp only [Action.report, runOn_bind, runOn_get, runOn_set, hw, hw']
  cases r with
  | ok done => exact ⟨rfl, ⟨rfl, hd, rfl⟩, hkept⟩
  | error fault => exact ⟨rfl, ⟨rfl, hd, rfl⟩, hkept⟩

/-- The bytes that are written to a file at its end stand at its end. -/
theorem Disk.write_at_end {disk : Disk}
    (hfile : disk.body? handle.route = some (.file content, mode))
    (hend : handle.append = true ∨ handle.position = content.size) (bs : Bytes) :
    ∃ disk' handle' content', disk.write handle bs = .ok (disk', handle') ∧
      disk'.body? handle.route = some (.file content', mode) ∧
      content'.toBytes = content.toBytes ++ bs ∧
      ∀ route, route ≠ handle.route → disk'.body? route = disk.body? route := by
  have hget := hfile
  rw [Disk.body?, Option.map_eq_some_iff] at hget
  rcases hget with ⟨⟨node, mode, modified⟩, hget, heq⟩
  cases heq
  cases hbs : bs.isEmpty with
  | true =>
      have hnil : bs = [] := List.isEmpty_iff.1 hbs
      subst hnil
      exact ⟨disk, handle, content, rfl, hfile, by rw [List.append_nil], fun _ _ => rfl⟩
  | false =>
      -- Either way the position is the end of the content.
      have hposition : (if handle.append then content.size else handle.position) =
        content.size := by
        rcases hend with happend | hposition
        · rw [if_pos happend]
        · rw [hposition, ite_self]
      have hwritten : content.writeAt content.size bs = content.append bs := by
        rw [Content.writeAt, if_pos rfl]
      refine ⟨(disk.set handle.route ⟨.file (content.append bs), mode, modified⟩).stamp
        handle.route, { handle with position := content.size + bs.length }, content.append bs, ?_,
          ?_, Content.toBytes_append _ _, ?_⟩
      · simp only [Disk.write, hbs, Bool.false_eq_true, if_false, hget, hposition, hwritten]
      · rw [Disk.body?_stamp, Disk.body?_set, if_pos rfl]
        rfl
      · intro route hne
        rw [Disk.body?_stamp, Disk.body?_set, if_neg (Ne.symm hne)]

/-- The answer of a builtin, and the two desks that it leaves: that with memory for its output, and
that with a file. The file holds what it held before, and then what memory holds. -/
structure Desk.Diverted (f : Route) (content : Content) (mode : Nat) (d : Desk)
    (r : Except Error Completion × Desk) (r' : Except Error Completion × Desk) : Prop where
  answer : r'.1 = r.1
  desks : Desk.Diverts f r.2 r'.2
  file : ∃ content', r'.2.disk.body? f = some (.file content', mode) ∧
    content'.toBytes = content.toBytes ++ r.2.out.held
  err : r'.2.err.route? = d.err.route?

/-- Printed into memory, bytes are all there. -/
theorem runOn_print_memory (d : Desk) (bs : Bytes) :
    runOn (Action.print bs) { d with out := .memory } = (.ok (), { d with out := .buffer bs }) :=
      rfl

/-- Printed to a file, bytes are written where the handle stands. -/
theorem runOn_print_file {disk' : Disk} {handle' : Handle}
    (h : d.disk.write handle bs = .ok (disk', handle')) :
    runOn (Action.print bs) { d with out := .file handle } =
      (.ok (), { d.withDisk disk' with out := .file handle' }) := by
  simp only [Action.print, runOn_bind, runOn_get, Sink.write]
  rw [show d.scene.host.disk.write handle bs = .ok (disk', handle') from h]
  rfl

/-- A builtin of the standard table whose output goes to the end of a file, which it does not use
otherwise. -/
theorem standard_diverted {name : String} {b : Builtin} (h : Builtin.standard.lookup name = some b)
    (args : List String) (stdin : Option Bytes)
    (hfile : d.disk.body? handle.route = some (.file content, mode))
    (hend : handle.append = true ∨ handle.position = content.size)
    (herr : d.err.route? ≠ some handle.route)
    (hunused : (runOn (b args stdin) { d with out := .memory }).2.disk.body? handle.route =
      d.disk.body? handle.route) :
    Desk.Diverted handle.route content mode d (runOn (b args stdin) { d with out := .memory })
      (runOn (b args stdin) { d with out := .file handle }) := by
  rcases standard_output h args stdin with hmute | ⟨text, rest, hcloses, hprints⟩
  · -- The builtin does not write, so both runs are the same, and neither changes the file.
    have hkept := hmute.out d .memory
    have hfiled := hmute.out d (.file handle)
    rw [hkept] at hunused ⊢
    rw [hfiled]
    refine ⟨rfl, ⟨rfl, ⟨rfl, fun _ _ => rfl⟩, rfl⟩, ⟨content, hunused.trans hfile, ?_⟩, hmute.err d⟩
    exact (List.append_nil _).symm
  · -- It writes at the end of the file, or to memory. What follows is a report at most, and that
    -- goes elsewhere.
    rcases Disk.write_at_end hfile hend (text d.scene)
      with ⟨disk', handle', content', hwrite, hfile', hbytes, hother⟩
    have hkept := hprints { d with out := .memory } rfl
    have hfiled := hprints { d with out := .file handle } rfl
    rw [runOn_bind_of_ok (runOn_print_memory d _)] at hkept
    rw [runOn_bind_of_ok (runOn_print_file hwrite)] at hfiled
    rw [hkept, hfiled]
    have hdesks : Desk.Diverts handle.route { d with out := .buffer (text d.scene) }
        { d.withDisk disk' with out := .file handle' } := ⟨rfl, ⟨rfl, hother⟩, rfl⟩
    have hrest := hcloses d.scene
    dsimp only
    generalize rest d.scene = y at hrest ⊢
    cases hrest with
    | ending c => exact ⟨rfl, hdesks, ⟨content', hfile', hbytes⟩, rfl⟩
    | reporting bs c =>
        rcases hdesks.report herr bs with ⟨hanswer, hreported, hkeptFile⟩
        have hout := (report_mute bs).keeps_out { d with out := .buffer (text d.scene) }
        have hroute := report_keeps_route bs { d.withDisk disk' with out := .file handle' }
        have hmap : ∀ e : Desk, runOn (do
            Action.report bs
            return c) e = ((runOn (Action.report bs) e).1.map fun _ => c,
              (runOn (Action.report bs) e).2) := by
          intro e
          rw [← runOn_map, map_eq_pure_bind]
        rw [hmap, hmap]
        refine ⟨by rw [hanswer], hreported, ⟨content', hkeptFile.trans hfile', ?_⟩, hroute⟩
        dsimp only
        rw [hout]
        exact hbytes

end Desks

end LineShell
