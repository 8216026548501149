import LineShell.Proofs.EmptyOperand
import LineShell.Proofs.Flags

/-!
# Turns — file commands and their operands

`mkdir`, `rm` and `touch` look at all their flags before they touch the disk. If one of them is
unknown, that is all that comes of it. Otherwise the operands have their turns, and none of them
knows of the others but by the disk: to treat some operands and then others is the same as two
commands, one after the other.

* `FileCommand` — the three commands, with what makes them differ;
* `FileCommand.builtin_refuses`, `FileCommand.builtin_flagWords` — a command with and without
  unknown flags;
* `InTurn` — an action that does what two others do, one after the other;
* `inTurn_forOperands` — operands in two lots;
* `file_commands_take_operands_in_turn` — both for all three commands.
-/

namespace LineShell

open Builtin

/-! ## The commands -/

/-- The commands that treat their operands as files. -/
inductive FileCommand where
  | mkdir
  | rm
  | touch
  deriving DecidableEq, Repr

namespace FileCommand

/-- The name that its reports start with. -/
def name : FileCommand → String
  | mkdir => "mkdir"
  | rm => "rm"
  | touch => "touch"

/-- What it says if there is no operand. -/
def missing : FileCommand → String
  | mkdir | rm => "missing operand"
  | touch => "missing file operand"

/-- The flags that it knows. -/
def knows : FileCommand → String → Bool
  | mkdir => ["-p", "--parents"].contains
  | rm => (recursiveFlags ++ forceFlags).contains
  | touch => fun _ => false

/-- What it does at a path, given its flags. -/
def act (flags : List String) : FileCommand → Disk → String → Disk × Except Fault Unit
  | mkdir =>
      fun d path => if flags.isEmpty then whole (d.makeDirectory path) d else d.makeDirectories path
  | rm => removeOne (flags.any recursiveFlags.contains) (flags.any forceFlags.contains)
  | touch => fun d path => whole (d.touch path) d

/-- How it reports an operand. -/
def message : FileCommand → String → Fault → String
  | mkdir => fun operand fault => s!"mkdir: cannot create directory '{operand}': {fault.describe}"
  | rm => removalReport
  | touch => fun operand fault => s!"touch: cannot touch '{operand}': {fault.describe}"

def builtin : FileCommand → Builtin
  | mkdir => Builtin.mkdir
  | rm => Builtin.rm
  | touch => Builtin.touch

section Command

variable {c : FileCommand} {args words operands : List String} {stdin : Option Bytes}

/-- A file command reads its options and goes through its operands. -/
theorem builtin_eq (c : FileCommand) (args : List String) (stdin : Option Bytes) :
    c.builtin args stdin =
      withOptions c.name c.missing c.knows args fun o =>
        forOperands (c.act o.flags) c.message o.operands := by
  cases c <;> rfl

def unknown (c : FileCommand) (args : List String) : List String :=
  (flagsIn args).filter (!c.knows ·)

/-- A flag is unknown if the command does not know it, wherever it stands. -/
theorem unknown_ne_nil_iff : c.unknown args ≠ [] ↔ ∃ flag ∈ flagsIn args, c.knows flag = false := by
  simp [unknown]

/-- An unknown flag is reported, and that is all. -/
theorem builtin_refuses (stdin : Option Bytes) (h : c.unknown args ≠ []) :
    c.builtin args stdin = Action.refuseOptions c.name (c.unknown args) := by
  have hsome : (c.unknown args).isEmpty = false := by simpa using h
  rw [builtin_eq, withOptions, Options.read_eq]
  change (if !(c.unknown args).isEmpty then _ else _) = _
  rw [hsome]
  rfl

/-- Behind known flags and `--`, all words are operands. -/
theorem builtin_flagWords (stdin : Option Bytes) (hwords : FlagWords c.knows words)
    (hsome : operands ≠ []) :
    c.builtin (words ++ "--" :: operands) stdin =
      forOperands (c.act (flagsIn words)) c.message operands := by
  have hoperands : operands.isEmpty = false := by simpa using hsome
  rw [builtin_eq, withOptions, Options.read_flagWords hwords]
  simp only [List.isEmpty_nil, Bool.not_true, Bool.false_eq_true, if_false, hoperands]

end Command

end FileCommand

/-! ## Refusing -/

section Refusing

variable {command : String} {unknown : List String} {d : Desk} {route : Route}

theorem refuseOptions_eq (command : String) (unknown : List String) :
    Action.refuseOptions command unknown = do
      Action.complain (command ++ ": invalid option(s): " ++ " ".intercalate unknown)
      return .usage := by
  rw [Action.refuseOptions]
  rfl

/-- A refusal changes at most the file that it is reported to. -/
theorem refuseOptions_keeps_entry (hroute : d.err.route? ≠ some route) :
    (runOn (Action.refuseOptions command unknown) d).2.disk.get? route = d.disk.get? route := by
  have hspares := d.spares_report false (fun _ => False)
    (Utf8.encode (command ++ ": invalid option(s): " ++ " ".intercalate unknown ++ "\n"))
  have hlast : (runOn (Action.refuseOptions command unknown) d).2 =
      (runOn (Action.report
        (Utf8.encode (command ++ ": invalid option(s): " ++ " ".intercalate unknown ++ "\n")))
          d).2 := by
    rw [refuseOptions_eq, Action.complain, runOn_bind]
    rcases runOn (Action.report _) d with ⟨e | done, d'⟩ <;> rfl
  rw [hlast]
  exact hspares.cleared.times route hroute fun _ hfalse => hfalse.elim

end Refusing

/-! ## Two lots of operands -/

/-- An action does what two actions do, one after the other: it leaves the desk that they leave, and
it fails if and only if one of them does. If one of them breaks off, then it breaks off there. -/
structure InTurn (together first second : Action Completion) (d : Desk) : Prop where
  ends : ∀ {c d₁ c' d₂}, runOn first d = (.ok c, d₁) → runOn second d₁ = (.ok c', d₂) →
    ∃ c'', runOn together d = (.ok c'', d₂) ∧ (c'' = .success ∨ c'' = .failure) ∧
      (c'' = .failure ↔ c = .failure ∨ c' = .failure)
  breaks_first : ∀ {e d₁}, runOn first d = (.error e, d₁) → runOn together d = (.error e, d₁)
  breaks_second : ∀ {c d₁ e d₂}, runOn first d = (.ok c, d₁) → runOn second d₁ = (.error e, d₂) →
    runOn together d = (.error e, d₂)

section Turns

variable {act : Disk → String → Disk × Except Fault Unit} {message : String → Fault → String}
  {front back operands : List String} {d d₁ : Desk} {c c' : Completion}

/-- Going through operands succeeds or fails, and nothing else. -/
theorem completion_forOperands {d' : Desk} (h : runOn (forOperands act message operands) d =
    (.ok c, d')) :
    c = .success ∨ c = .failure := by
  rcases exists_treats act message operands d with ⟨verdicts, hcourse⟩
  rw [h] at hcourse
  exact hcourse.completion rfl

/-- Memory takes all reports, so nothing breaks off. -/
theorem forOperands_ends (act : Disk → String → Disk × Except Fault Unit)
    (message : String → Fault → String) (operands : List String) {bytes : Bytes}
    (herr : d.err = .buffer bytes) :
    ∃ c d' bytes', runOn (forOperands act message operands) d = (.ok c, d') ∧
      d'.err = .buffer bytes' := by
  rcases exists_treats act message operands d with ⟨verdicts, hcourse⟩
  rcases hcourse.told herr with ⟨herr', c, hc⟩
  exact ⟨c, _, _, Prod.ext hc rfl, herr'⟩

/-- Two completions make a failure if one of them is. -/
theorem Completion.both_eq_failure_iff (hc : c = .success ∨ c = .failure) :
    c.both c' = .failure ↔ c = .failure ∨ c' = .failure := by
  rcases hc with rfl | rfl
  · rw [both_success]
    simp [success, failure]
  · simp [both_failure]

/-- Operands in two groups are gone through in turn. -/
theorem inTurn_forOperands (act : Disk → String → Disk × Except Fault Unit)
    (message : String → Fault → String) (front back : List String) (d : Desk) :
    InTurn (forOperands act message (front ++ back)) (forOperands act message front)
      (forOperands act message back) d where
  ends := by
    intro c d₁ c' d₂ hfront hback
    have hwhole : runOn (forOperands act message (front ++ back)) d = (.ok (c.both c'), d₂) := by
      rw [runOn_forOperands_append, runOn_bind_of_ok hfront, runOn_bind_of_ok hback]
      rfl
    exact ⟨_, hwhole, completion_forOperands hwhole,
      Completion.both_eq_failure_iff (completion_forOperands hfront)⟩
  breaks_first := by
    intro e d₁ hfront
    rw [runOn_forOperands_append, runOn_bind_of_error hfront]
  breaks_second := by
    intro c d₁ e d₂ hfront hback
    rw [runOn_forOperands_append, runOn_bind_of_ok hfront, runOn_bind_of_error hback]

end Turns

/-- A file command with an unknown flag reports all unknown flags in order, changes nothing else and
ends with the status of a wrong call. With known flags, it treats its operands independently: those
in front and those behind come to what they come to in two commands, one after the other. -/
theorem file_commands_take_operands_in_turn (c : FileCommand) (stdin : Option Bytes) (d : Desk) :
    (∀ args, (∃ flag ∈ flagsIn args, c.knows flag = false) →
      let text := c.name ++ ": invalid option(s): " ++ " ".intercalate (c.unknown args)
      runOn (c.builtin args stdin) d = runOn (do
        Action.complain text
        return .code 2) d ∧
      (∀ route, d.err.route? ≠ some route →
        (runOn (c.builtin args stdin) d).2.disk.get? route = d.disk.get? route) ∧
      ∀ bytes, d.err = .buffer bytes → runOn (c.builtin args stdin) d =
        (.ok (.code 2), { d with err := .buffer (bytes ++ Utf8.encode (text ++ "\n")) })) ∧
    ∀ words front back, FlagWords c.knows words → front ≠ [] → back ≠ [] →
      let on := fun operands => c.builtin (words ++ "--" :: operands) stdin
      InTurn (on (front ++ back)) (on front) (on back) d ∧
      ∀ bytes, d.err = .buffer bytes →
        ∃ c d₁ c' d₂, runOn (on front) d = (.ok c, d₁) ∧ runOn (on back) d₁ = (.ok c', d₂) := by
  refine ⟨fun args hunknown => ?_, fun words front back hwords hfront hback => ?_⟩
  · have hrefused := c.builtin_refuses stdin (c.unknown_ne_nil_iff.2 hunknown)
    refine ⟨?_, fun route hroute => ?_, fun bytes herr => ?_⟩
    · rw [hrefused, refuseOptions_eq]
      rfl
    · rw [hrefused]
      exact refuseOptions_keeps_entry hroute
    · rw [hrefused, refuseOptions_eq, Action.complain,
        runOn_bind_of_ok (runOn_report_of_buffer herr _)]
      rfl
  · -- With flags in front and `--` behind them, the operands are exactly those that are given.
    have htogether : front ++ back ≠ [] := List.append_ne_nil_of_left_ne_nil hfront back
    dsimp only
    rw [c.builtin_flagWords stdin hwords htogether, c.builtin_flagWords stdin hwords hfront,
      c.builtin_flagWords stdin hwords hback]
    refine ⟨inTurn_forOperands _ _ _ _ _, fun bytes herr => ?_⟩
    rcases forOperands_ends (c.act (flagsIn words)) c.message front herr
      with ⟨c₁, d₁, bytes₁, hrun₁, herr₁⟩
    rcases forOperands_ends (c.act (flagsIn words)) c.message back herr₁
      with ⟨c₂, d₂, bytes₂, hrun₂, -⟩
    exact ⟨c₁, d₁, c₂, d₂, hrun₁, hrun₂⟩

/-- A directory is reported and stays, the file behind it is removed, and the status is the one of
the report. Flags that are not known stand behind an operand and in a word with one that is
known. -/
theorem reported_directory_does_not_stop_others :
    FlagWords FileCommand.rm.knows ["-f"] ∧
      (∃ d₁ c' d₂, runOn (Builtin.rm ["-f", "--", "d"] none) linkedDesk = (.ok .failure, d₁) ∧
        runOn (Builtin.rm ["-f", "--", "f"] none) d₁ = (.ok c', d₂) ∧
        runOn (Builtin.rm ["-f", "--", "d", "f"] none) linkedDesk = (.ok .failure, d₂)) ∧
      FileCommand.mkdir.unknown ["new", "-pz", "--bogus", "--", "-q"] = ["-z", "--bogus"] ∧
      runOn (Builtin.mkdir ["new", "-pz", "--bogus", "--", "-q"] none) linkedDesk =
        (.ok (.code 2), { linkedDesk with
          err := .buffer (Utf8.encode "mkdir: invalid option(s): -z --bogus\n") }) := by
  have hwords : FlagWords FileCommand.rm.knows ["-f"] := by
    rintro word hword
    cases List.mem_singleton.1 hword
    exact ⟨by decide, ["-f"], by decide, by decide⟩
  have hunknown : FileCommand.mkdir.unknown ["new", "-pz", "--bogus", "--", "-q"] =
    ["-z", "--bogus"] := by decide
  refine ⟨hwords, ?_, hunknown, ?_⟩
  · rcases (file_commands_take_operands_in_turn .rm none linkedDesk).2 ["-f"] ["d"] ["f"] hwords
      (by decide) (by decide) with ⟨hturns, hends⟩
    rcases hends [] rfl with ⟨c, d₁, c', d₂, hfirst, hsecond⟩
    have hreported : (runOn (Builtin.rm ["-f", "--", "d"] none) linkedDesk).1 = .ok .failure := rfl
    rw [show runOn (Builtin.rm ["-f", "--", "d"] none) linkedDesk = (.ok c, d₁) from hfirst]
      at hreported
    cases hreported
    rcases hturns.ends hfirst hsecond with ⟨c'', htogether, -, hfails⟩
    -- One of the two failed, so the two together fail.
    cases hfails.2 (.inl rfl)
    exact ⟨d₁, c', d₂, hfirst, hsecond, htogether⟩
  · have hrefused := ((file_commands_take_operands_in_turn .mkdir none linkedDesk).1
      ["new", "-pz", "--bogus", "--", "-q"] ⟨"-z", by decide, by decide⟩).2.2 [] rfl
    rw [hunknown] at hrefused
    exact hrefused

end LineShell
