import LineShell.Proofs.Execution

/-!
# Conduct — how builtins end

A builtin ends with a status, or with the wish that the session end, and it reports its own
failures. Of the builtins that every session starts with, only `exit` has that wish, and only
`false` fails without a word.

* `Reports` — an action that tells its failures and nothing else;
* `Honest` — an action that tells its failures and lets the session go on;
* `forOperands_honest`, `withOptions_honest` — commands that treat their operands one after the
  other;
* `standard_conduct` — the builtins that every session starts with;
* `standard_exits_iff`, `standard_reports` — which of them end the session, and which tell their
  failures.
-/

namespace LineShell

theorem Utf8.encode_append (a b : String) : encode (a ++ b) = encode a ++ encode b := by
  simp [encode]

theorem append_newline_ne_empty (text : String) : text ++ "\n" ≠ "" := by
  intro h
  exact absurd (String.append_eq_empty_iff.1 h).2 (by decide)

/-- At a desk with memory for its errors, the action adds a text to that memory. If it ends with a
status, then the text is empty if and only if the status is that of success. -/
def Reports (x : Action Completion) : Prop :=
  ∀ d bytes, d.err = .buffer bytes →
    ∃ text, (runOn x d).2.err = .buffer (bytes ++ Utf8.encode text) ∧
      ∀ n, (runOn x d).1 = .ok (.code n) → (n = 0 ↔ text = "")

/-- The action never asks the session to end, and it reports. -/
structure Honest (x : Action Completion) : Prop where
  stays : ∀ d c, (runOn x d).1 ≠ .ok (.exit c)
  reports : Reports x

/-! ## Steps -/

section Steps

variable {α : Type} {x y : Action Completion}

/-- A report into a buffer cannot fail. -/
theorem runOn_report_of_buffer {d : Desk} {bytes : Bytes} (h : d.err = .buffer bytes) (bs : Bytes) :
    runOn (Action.report bs) d = (.ok (), { d with err := .buffer (bytes ++ bs) }) := by
  rcases d with ⟨scene, out, err⟩
  cases h
  rfl

theorem print_keeps_err (bs : Bytes) : Keeps Desk.err (Action.print bs) := by
  intro d
  rw [Action.print, runOn_bind_of_ok (runOn_get d)]
  rcases d.out.write bs d.scene.host with ⟨out, host, fault | done⟩ <;> rfl

/-- Notes for the log are not written to the errors. -/
theorem note_keeps_err (event : Log.Event) : Keeps Desk.err (Action.note event) :=
  fun _ => rfl

theorem setDisk_keeps_err (disk : Disk) : Keeps Desk.err (Action.setDisk disk) :=
  fun _ => rfl

theorem modifyEnv_keeps_err (f : Environment → Environment) : Keeps Desk.err (Action.modifyEnv f) :=
  fun _ => rfl

theorem scene_keeps_err : Keeps Desk.err Action.scene :=
  fun _ => rfl

theorem buffer_append_empty {d : Desk} {bytes : Bytes} (h : d.err = .buffer bytes) :
    d.err = .buffer (bytes ++ Utf8.encode "") := by
  simp [Utf8.encode, h]

namespace Honest

theorem success : Honest (pure .success) where
  stays d c := by simp [Completion.success]
  reports d bytes h := by
    refine ⟨"", buffer_append_empty h, ?_⟩
    intro n hn
    cases hn
    simp

/-- A step that says nothing. -/
theorem bind {x : Action α} {f : α → Action Completion} (hx : Keeps Desk.err x)
    (hf : ∀ a, Honest (f a)) : Honest (x >>= f) where
  stays d c := by
    rw [runOn_bind]
    rcases runOn x d with ⟨e | a, d'⟩
    · simp
    · exact (hf a).stays d' c
  reports d bytes h := by
    have hd := hx d
    rw [runOn_bind]
    rcases hr : runOn x d with ⟨e | a, d'⟩ <;> rw [hr, h] at hd
    · refine ⟨"", buffer_append_empty hd, ?_⟩
      intro n hn
      cases hn
    · exact (hf a).reports d' bytes hd

theorem ite {c : Prop} [Decidable c] (hx : Honest x) (hy : Honest y) :
    Honest (if c then x else y) := by
  split
  · exact hx
  · exact hy

/-- A report, then the rest, and then failure: the rest cannot take the report back. -/
theorem report_rest {text : String} (htext : text ≠ "") (hx : Honest x) {n : Int} (hn : n ≠ 0) :
    Honest (do
      Action.report (Utf8.encode text)
      let _ ← x
      return .code n) where
  stays d c := by
    rw [runOn_bind]
    rcases runOn (Action.report (Utf8.encode text)) d with ⟨e | a, d'⟩
    · simp
    · dsimp only
      rw [runOn_bind]
      rcases runOn x d' with ⟨e | a, d''⟩ <;> simp
  reports d bytes h := by
    rw [runOn_bind_of_ok (runOn_report_of_buffer h _)]
    -- What the rest says goes behind the text, so the whole is not empty.
    rcases hx.reports { d with err := .buffer (bytes ++ Utf8.encode text) } _ rfl
      with ⟨more, herr, -⟩
    have hne : text ++ more ≠ "" := by
      intro hempty
      exact htext (String.append_eq_empty_iff.1 hempty).1
    refine ⟨text ++ more, ?_, ?_⟩
    · -- The rest may break off, but what it said stays said.
      rw [Utf8.encode_append text, ← List.append_assoc, ← herr, runOn_bind]
      rcases runOn x _ with ⟨e | a, d'⟩ <;> rfl
    · intro m hm
      rw [runOn_bind] at hm
      rcases hr : runOn x _ with ⟨e | a, d'⟩ <;> rw [hr] at hm <;> cases hm
      simp [hn, hne]

/-- A report with a text comes with a code that is not zero. -/
theorem report {text : String} (htext : text ≠ "") {n : Int} (hn : n ≠ 0) :
    Honest (do
      Action.report (Utf8.encode text)
      return .code n) := by
  have hrest := report_rest htext success hn
  simpa only [pure_bind] using hrest

theorem complain (text : String) {n : Int} (hn : n ≠ 0) :
    Honest (do
      Action.complain text
      return .code n) :=
  report (append_newline_ne_empty text) hn

/-- After a complaint the rest may do what is honest, as long as the code stays. -/
theorem complain_rest (text : String) (hx : Honest x) {n : Int} (hn : n ≠ 0) :
    Honest (do
      Action.complain text
      let _ ← x
      return .code n) :=
  report_rest (append_newline_ne_empty text) hx hn

end Honest

end Steps

/-! ## Commands -/

theorem refuseOptions_honest (command : String) (unknown : List String) :
    Honest (Action.refuseOptions command unknown) :=
  .complain _ (by decide)

/-- Going through operands is honest: the code is zero unless one was complained about. -/
theorem forOperands_honest (act : Disk → String → Disk × Except Fault Unit)
    (message : String → Fault → String) (operands : List String) :
    Honest (Builtin.forOperands act message operands) := by
  induction operands with
  | nil => exact .success
  | cons operand rest ih =>
      refine .bind scene_keeps_err fun s => .bind (setDisk_keeps_err _) fun _ => ?_
      split
      · exact ih
      · exact .complain_rest _ ih (by decide)

/-- Reading options is honest if what runs with them is. -/
theorem withOptions_honest {command missing : String} {known : String → Bool} {args : List String}
    {run : Options → Action Completion} (h : ∀ o, Honest (run o)) :
    Honest (Builtin.withOptions command missing known args run) :=
  .ite (refuseOptions_honest _ _) (.ite (.complain _ (by decide)) (h _))

theorem exportAll_honest (args : List String) : Honest (Builtin.exportAll args) := by
  induction args with
  | nil => exact .success
  | cons arg rest ih =>
      exact .ite (.bind (modifyEnv_keeps_err _) fun _ => ih) (.complain_rest _ ih (by decide))

theorem unsetAll_honest (args : List String) : Honest (Builtin.unsetAll args) := by
  induction args with
  | nil => exact .success
  | cons arg rest ih =>
      refine .ite ?_ (.complain_rest _ ih (by decide))
      refine .bind scene_keeps_err fun s => .bind (modifyEnv_keeps_err _) fun _ => ?_
      exact .ite (.bind (note_keeps_err _) fun _ => ih) ih

theorem cdTo_honest (shown path : String) : Honest (Builtin.cdTo shown path) := by
  refine .bind scene_keeps_err fun s => ?_
  split
  · refine .ite (.bind (note_keeps_err _) fun _ => .bind ?_ fun _ =>
      .success) (.complain _ (by decide))
    exact fun _ => rfl
  · exact .complain _ (by decide)

theorem cd_honest (args : List String) (stdin : Option Bytes) : Honest (Builtin.cd args stdin) := by
  refine .bind scene_keeps_err fun s => ?_
  split
  · exact cdTo_honest _ _
  · exact cdTo_honest _ _
  · exact .complain _ (by decide)

/-- Failure with a line for each complaint, or success if there is none. -/
theorem complaints_honest (complaints : List String) :
    Honest (if complaints.isEmpty then pure .success else do
      Action.report (Utf8.encode (String.join (complaints.map (· ++ "\n"))))
      return .failure) := by
  cases complaints with
  | nil => exact .success
  | cons first rest =>
      refine .report ?_ (by decide)
      rw [List.map_cons, String.join_cons]
      intro hempty
      exact append_newline_ne_empty first (String.append_eq_empty_iff.1 hempty).1

theorem ls_honest (args : List String) (stdin : Option Bytes) : Honest (Builtin.ls args stdin) :=
  .ite (refuseOptions_honest _ _)
    (.bind .get fun _ => .bind (print_keeps_err _) fun _ => complaints_honest _)

/-- The builtins that every session starts with are honest, but for two. -/
theorem standard_conduct {name : String} {b : Builtin} (h : Builtin.standard.lookup name = some b) :
    name = "exit" ∧ b = Builtin.exit ∨ name = "false" ∧ b = Builtin.fail ∨
      ∀ args stdin, Honest (b args stdin) := by
  rcases List.lookup_eq_some_iff.1 h with ⟨before, after, htable, -⟩
  have hmem : (name, b) ∈ Builtin.standard := by simp [htable]
  simp only [Builtin.standard, List.mem_cons, Prod.mk.injEq, List.not_mem_nil, or_false] at hmem
  -- One case for each builtin, in the order of the table.
  rcases hmem with ⟨-, rfl⟩ | ⟨-, rfl⟩ | ⟨-, rfl⟩ | ⟨-, rfl⟩ | ⟨-, rfl⟩ | ⟨-, rfl⟩ | ⟨-, rfl⟩ |
    ⟨-, rfl⟩ | ⟨-, rfl⟩ | ⟨-, rfl⟩ | hexit | ⟨-, rfl⟩ | hfalse
  · exact .inr (.inr cd_honest)
  · exact .inr (.inr fun _ _ =>
      .bind scene_keeps_err fun _ => .bind (print_keeps_err _) fun _ => .success)
  · exact .inr (.inr ls_honest)
  · exact .inr (.inr fun _ _ => withOptions_honest fun _ => forOperands_honest _ _ _)
  · exact .inr (.inr fun _ _ => withOptions_honest fun _ => forOperands_honest _ _ _)
  · exact .inr (.inr fun _ _ => withOptions_honest fun _ => forOperands_honest _ _ _)
  · exact .inr (.inr fun _ _ => .bind (print_keeps_err _) fun _ => .success)
  · exact .inr (.inr fun args _ => exportAll_honest args)
  · exact .inr (.inr fun args _ => unsetAll_honest args)
  · exact .inr (.inr fun _ _ => .bind .get fun _ => .bind (print_keeps_err _) fun _ => .success)
  · exact .inl hexit
  · exact .inr (.inr fun _ _ => .success)
  · exact .inr (.inl hfalse)

theorem lookup_exit : Builtin.standard.lookup "exit" = some Builtin.exit := by
  simp [Builtin.standard, List.lookup_cons]

theorem lookup_echo : Builtin.standard.lookup "echo" = some Builtin.echo := by
  simp [Builtin.standard, List.lookup_cons]

/-- Of the builtins that every session starts with, `exit` ends the session with the status that its
argument asks for, and no other ends it. -/
theorem standard_exits_iff {name : String} {b : Builtin} (h : Builtin.standard.lookup name = some b)
    {args : List String} {stdin : Option Bytes} {d : Desk} {c : Int} :
    (runOn (b args stdin) d).1 = .ok (.exit c) ↔
      name = "exit" ∧ c = (args.head?.map Builtin.exitStatus).getD 0 := by
  rcases standard_conduct h with ⟨rfl, rfl⟩ | ⟨rfl, rfl⟩ | honest
  · simp [Builtin.exit, eq_comm]
  · simp [Builtin.fail, Completion.failure]
  · -- An honest builtin is not `exit`, which is in the table only once.
    have hname : name ≠ "exit" := by
      rintro rfl
      cases h.symm.trans lookup_exit
      exact (honest args stdin).stays d _ rfl
    simpa [hname] using (honest args stdin).stays d c

/-- Of the builtins that every session starts with, only `false` fails without a word. -/
theorem standard_reports {name : String} {b : Builtin} (h : Builtin.standard.lookup name = some b)
    (hname : name ≠ "false") (args : List String) (stdin : Option Bytes) :
    Reports (b args stdin) := by
  rcases standard_conduct h with ⟨-, rfl⟩ | ⟨hfalse, -⟩ | honest
  · intro d bytes hd
    refine ⟨"", buffer_append_empty hd, ?_⟩
    intro n hn
    cases hn
  · exact (hname hfalse).elim
  · exact (honest args stdin).reports

end LineShell
