import LineShell.Proofs.DotenvWriting
import LineShell.Proofs.EmptyOperand
import LineShell.Proofs.LastWrite

/-!
# Naming — arguments that name variables

`export` and `unset` treat their arguments from left to right. An argument counts if the name in it
is an identifier; every other one is reported as a whole, and neither stops those behind it nor
undoes those before it.

* `VariableCommand` — the two commands, with what they read from an argument;
* `exportOf_eq` — the name in front of the first equals sign, and the value behind it;
* `builtin_cons_of_counts`, `builtin_cons_of_not_counts` — one argument in front of others;
* `Sink.Takes` — writes that all succeed, one after the other;
* `builtin_append` — some arguments and then others are two commands;
* `standing_applied_of_last`, `sound_applied` — what is known of a name after them;
* `valid_arguments_take_effect_in_turn` — all of it.
-/

namespace LineShell

open Builtin Environment

/-! ## The commands -/

/-- The commands that take their arguments for names of variables. -/
inductive VariableCommand where
  | exports
  | unsets
  deriving DecidableEq, Repr

namespace VariableCommand

/-- The name that its reports start with. -/
def name : VariableCommand → String
  | exports => "export"
  | unsets => "unset"

def builtin : VariableCommand → Builtin
  | exports => fun args _ => exportAll args
  | unsets => fun args _ => unsetAll args

/-- The name that an argument gives, without the white space around it. For `export` it ends in
front of the first equals sign. -/
def nameOf (arg : String) : VariableCommand → String
  | exports => String.ofList (Text.trim (arg.toList.takeWhile (· != '=')))
  | unsets => String.ofList (Text.trim arg.toList)

/-- The value that an argument of `export` gives: all that stands behind the first equals sign, if
there is one. -/
def valueOf (arg : String) : Option String :=
  if '=' ∈ arg.toList then some (String.ofList ((arg.toList.dropWhile (· != '=')).drop 1)) else none

/-- What the argument asks for. -/
def change (arg : String) : VariableCommand → Change
  | exports => .exportName (exports.nameOf arg) (valueOf arg)
  | unsets => .unset (unsets.nameOf arg)

/-- What is known of the name in an argument once the argument has had its effect. An export marks
the name and gives it the value, or, without one, an empty value if it has none. A name that is
removed is gone with its marks. -/
def leaves (arg : String) (known : Standing) : VariableCommand → Standing
  | exports =>
      { known with value := some ((valueOf arg).getD (known.value.getD "")), exported := true }
  | unsets => {}

def counts (c : VariableCommand) (arg : String) : Bool :=
  isIdentifier (c.nameOf arg)

def report (c : VariableCommand) (arg : String) : Bytes :=
  Utf8.encode (c.name ++ ": not a valid identifier: " ++ arg ++ "\n")

def reports (c : VariableCommand) (args : List String) : List Bytes :=
  (args.filter (!c.counts ·)).map c.report

/-- The environment after all arguments that count, from left to right. -/
def applied (c : VariableCommand) (e : Environment) (args : List String) : Environment :=
  ((args.filter c.counts).map fun arg => c.change arg).foldl Environment.apply e

end VariableCommand

/-! ## Reading an argument -/

theorem Text.cut?_eq_none {sep : Char} {cs : List Char} (h : sep ∉ cs) :
    Text.cut? sep cs = none := by
  induction cs with
  | nil => rfl
  | cons c cs ih =>
      rw [List.mem_cons, not_or] at h
      rw [Text.cut?, if_neg (Ne.symm h.1), ih h.2]
      rfl

/-- The argument is cut at its first equals sign, as the command reads it. -/
theorem exportOf_eq (arg : String) :
    exportOf arg = (VariableCommand.exports.nameOf arg, VariableCommand.valueOf arg) := by
  rw [exportOf, VariableCommand.nameOf, VariableCommand.valueOf]
  generalize arg.toList = cs
  have hall : ∀ front : List Char, '=' ∉ front → ∀ c ∈ front, (c != '=') = true := by
    intro front hfront c hc
    rw [bne_iff_ne]
    rintro rfl
    exact hfront hc
  by_cases hmem : '=' ∈ cs
  · obtain ⟨front, back, rfl, hfront⟩ := List.eq_append_cons_of_mem hmem
    rw [Text.cut?_append hfront, if_pos hmem, List.takeWhile_append_of_pos (hall front hfront),
      List.dropWhile_append_of_pos (hall front hfront)]
    simp
  · have hwhole : cs.takeWhile (· != '=') = cs := by
      have happend := @List.takeWhile_append_of_pos _ (· != '=') cs [] (hall cs hmem)
      simpa using happend
    rw [Text.cut?_eq_none hmem, if_neg hmem, hwhole]

/-! ## One argument in front of others -/

namespace VariableCommand

section Steps

variable {c : VariableCommand} {arg : String} {rest : List String} {stdin : Option Bytes}

/-- What is recorded of an argument that counts: that a variable was removed. -/
def events (e : Environment) (arg : String) : VariableCommand → List Log.Event
  | exports => []
  | unsets => if e.contains (unsets.nameOf arg) then [.unsetVariable (unsets.nameOf arg)] else []

/-- A desk after an argument that counts. -/
def treat (c : VariableCommand) (arg : String) (d : Desk) : Desk :=
  { d with scene := { d.scene with
      env := d.scene.env.apply (c.change arg)
      records := d.scene.records ++
        (c.events d.scene.env arg).map fun event => ⟨event, d.scene.host.stderr.written.length⟩ } }

/-- An argument that counts takes effect before the others are looked at. -/
theorem runOn_cons_of_counts (h : c.counts arg = true) (d : Desk) :
    runOn (c.builtin (arg :: rest) stdin) d = runOn (c.builtin rest stdin) (c.treat arg d) := by
  cases c with
  | exports =>
      have hname : isIdentifier (exportOf arg).1 = true := by rw [exportOf_eq]; exact h
      -- An export is not recorded.
      have htreat : exports.treat arg d = { d with scene := { d.scene with
          env := d.scene.env.exportName (exportOf arg).1 (exportOf arg).2 } } := by
        rw [exportOf_eq, treat, events, List.map_nil, List.append_nil]
        rfl
      simp only [builtin, exportAll, hname, if_true, htreat]
      rfl
  | unsets =>
      have hname : isIdentifier (unsets.nameOf arg) = true := h
      have hrun : runOn (unsetAll (arg :: rest)) d =
          runOn (if d.scene.env.contains (unsets.nameOf arg) then do
              Action.note (.unsetVariable (unsets.nameOf arg))
              unsetAll rest
            else unsetAll rest)
            { d with scene := { d.scene with env := d.scene.env.unset (unsets.nameOf arg) } } := by
        rw [unsetAll]
        simp only [nameOf] at hname
        simp only [hname, if_true]
        rfl
      by_cases hset : d.scene.env.contains (unsets.nameOf arg) = true
      · rw [if_pos hset] at hrun
        rw [treat, events, if_pos hset]
        exact hrun
      · rw [if_neg hset] at hrun
        rw [treat, events, if_neg hset, List.map_nil, List.append_nil]
        exact hrun

theorem builtin_cons_of_counts (h : c.counts arg = true) :
    c.builtin (arg :: rest) stdin = (do
      modify (c.treat arg)
      c.builtin rest stdin) :=
  funext (runOn_cons_of_counts h)

/-- An argument that does not count is reported, and the others are gone through. -/
theorem builtin_cons_of_not_counts (h : c.counts arg = false) :
    c.builtin (arg :: rest) stdin = (do
      Action.report (c.report arg)
      let _ ← c.builtin rest stdin
      return .failure) := by
  cases c with
  | exports =>
      have hname : isIdentifier (exportOf arg).1 = false := by rw [exportOf_eq]; exact h
      simp only [builtin, exportAll, hname, Bool.false_eq_true, if_false]
      rfl
  | unsets =>
      have hname : isIdentifier (String.ofList (Text.trim arg.toList)) = false := h
      simp only [builtin, unsetAll, hname, Bool.false_eq_true, if_false]
      rfl

end Steps

end VariableCommand

/-! ## Reports that are taken -/

/-- The sink takes some pieces, one write after the other, and no write fails. -/
inductive Sink.Takes : Sink → Host → List Bytes → Sink → Host → Prop
  | nil {s : Sink} {h : Host} : Takes s h [] s h
  | cons {s s' s'' : Sink} {h h' h'' : Host} {bs : Bytes} {pieces : List Bytes}
    (hwrite : s.write bs h = (s', h', .ok ()))
      (hrest : Takes s' h' pieces s'' h'') : Takes s h (bs :: pieces) s'' h''

/-- Memory takes everything, in order. -/
theorem Sink.takes_buffer (old : Bytes) (h : Host) (pieces : List Bytes) :
    (Sink.buffer old).Takes h pieces (.buffer (old ++ pieces.flatten)) h := by
  induction pieces generalizing old with
  | nil => simpa using Sink.Takes.nil
  | cons bs pieces ih =>
      have hrest := ih (old ++ bs)
      rw [List.append_assoc] at hrest
      exact .cons rfl hrest

/-- A report whose write succeeds changes sink and host only. -/
theorem runOn_report_of_write {d : Desk} {bs : Bytes} {err : Sink} {host : Host}
    (h : d.err.write bs d.scene.host = (err, host, .ok ())) :
    runOn (Action.report bs) d = (.ok (), { d with err, scene := { d.scene with host } }) := by
  rw [Action.report, runOn_bind_of_ok (runOn_get d)]
  simp only [h]
  rfl

namespace VariableCommand

section Runs

variable (c : VariableCommand) (stdin : Option Bytes)

theorem applied_cons_of_counts {arg : String} (h : c.counts arg = true) (e : Environment)
    (rest : List String) :
    c.applied e (arg :: rest) = c.applied (e.apply (c.change arg)) rest := by
  rw [applied, List.filter_cons_of_pos h, List.map_cons, List.foldl_cons]
  rfl

/-- An argument that does not count is passed over. -/
theorem applied_cons_of_not_counts {arg : String} (h : c.counts arg = false) (e : Environment)
    (rest : List String) :
    c.applied e (arg :: rest) = c.applied e rest := by
  rw [applied, List.filter_cons_of_neg (by simp [h])]
  rfl

/-- A command whose reports are taken treats all its arguments. -/
theorem runOn_builtin {args : List String} {d : Desk} {err : Sink} {host : Host}
    (h : d.err.Takes d.scene.host (c.reports args) err host) : ∃ records,
    runOn (c.builtin args stdin) d = (.ok (if args.all c.counts then .success else .failure),
      { d with
        err
        scene := { d.scene with env := c.applied d.scene.env args, host, records } }) := by
  induction args generalizing d with
  | nil =>
      cases h
      exact ⟨d.scene.records, by cases c <;> rfl⟩
  | cons arg rest ih =>
      cases hcounts : c.counts arg with
      | true =>
          -- Nothing is said of it, so the sink still has the same reports to take.
          have hreports : c.reports (arg :: rest) = c.reports rest := by
            rw [reports, List.filter_cons_of_neg (by simp [hcounts])]
            rfl
          rw [hreports] at h
          obtain ⟨records, hrun⟩ := @ih (c.treat arg d) h
          refine ⟨records, ?_⟩
          rw [runOn_cons_of_counts hcounts, hrun, applied_cons_of_counts c hcounts, List.all_cons,
            hcounts]
          rfl
      | false =>
          have hreports : c.reports (arg :: rest) = c.report arg :: c.reports rest := by
            rw [reports, List.filter_cons_of_pos (by simp [hcounts])]
            rfl
          rw [hreports] at h
          cases h with
          | cons hwrite hrest =>
              obtain ⟨records, hrun⟩ :=
                @ih { d with err := _, scene := { d.scene with host := _ } } hrest
              refine ⟨records, ?_⟩
              rw [builtin_cons_of_not_counts hcounts,
                runOn_bind_of_ok (runOn_report_of_write hwrite), runOn_bind_of_ok hrun,
                applied_cons_of_not_counts c hcounts, List.all_cons, hcounts]
              rfl

/-- Some arguments and then others are two commands, one after the other. -/
theorem builtin_append (front back : List String) :
    c.builtin (front ++ back) stdin = (do
      let first ← c.builtin front stdin
      let second ← c.builtin back stdin
      return first.both second) := by
  induction front with
  | nil =>
      have hnil : c.builtin [] stdin = pure .success := by cases c <;> rfl
      rw [List.nil_append, hnil, pure_bind]
      simp only [Completion.both_success, bind_pure]
  | cons arg front ih =>
      cases hcounts : c.counts arg with
      | true =>
          rw [List.cons_append, builtin_cons_of_counts hcounts, builtin_cons_of_counts hcounts, ih,
            bind_assoc]
      | false =>
          -- Whatever the arguments behind end in, the status is that of the report.
          rw [List.cons_append, builtin_cons_of_not_counts hcounts,
            builtin_cons_of_not_counts hcounts, ih]
          simp only [bind_assoc, pure_bind, Completion.both_failure]

/-- One more argument that counts changes what is known of its name, and nothing else. -/
theorem standing_apply_change (arg name : String) (e : Environment) :
    (e.apply (c.change arg)).standing name =
      if c.nameOf arg = name then c.leaves arg (e.standing name) else e.standing name := by
  rw [standing_apply]
  cases c <;> rfl

/-- A name that no argument names, if it counts, keeps its value and its marks. -/
theorem standing_applied_of_not_named {args : List String} {name : String}
    (h : ∀ arg ∈ args, c.counts arg = true → c.nameOf arg ≠ name) (e : Environment) :
    (c.applied e args).standing name = e.standing name := by
  induction args generalizing e with
  | nil => rfl
  | cons arg rest ih =>
      obtain ⟨harg, hrest⟩ := List.forall_mem_cons.1 h
      cases hcounts : c.counts arg with
      | true =>
          rw [applied_cons_of_counts c hcounts, ih hrest, standing_apply_change,
            if_neg (harg hcounts)]
      | false => rw [applied_cons_of_not_counts c hcounts, ih hrest]

/-- Arguments take effect from left to right. -/
theorem applied_append (e : Environment) (front back : List String) :
    c.applied e (front ++ back) = c.applied (c.applied e front) back := by
  rw [applied, List.filter_append, List.map_append, List.foldl_append]
  rfl

/-- The last argument that counts and names a name settles what is known of it. -/
theorem standing_applied_of_last {front back : List String} {arg : String}
    (hcounts : c.counts arg = true)
    (hlast : ∀ later ∈ back, c.counts later = true → c.nameOf later ≠ c.nameOf arg)
    (e : Environment) :
    (c.applied e (front ++ arg :: back)).standing (c.nameOf arg) =
      c.leaves arg ((c.applied e front).standing (c.nameOf arg)) := by
  rw [applied_append, applied_cons_of_counts c hcounts, standing_applied_of_not_named c hlast,
    standing_apply_change, if_pos rfl]

/-- Only names that are set have marks, before and after. -/
theorem sound_applied {e : Environment} (h : ∀ name, Standing.Sound (e.standing name))
    (args : List String) (name : String) : Standing.Sound ((c.applied e args).standing name) := by
  induction args generalizing e with
  | nil => exact h name
  | cons arg rest ih =>
      cases hcounts : c.counts arg with
      | true =>
          rw [applied_cons_of_counts c hcounts]
          refine ih fun name => ?_
          rw [standing_apply]
          exact (c.change arg).sound_effect name (h name)
      | false =>
          rw [applied_cons_of_not_counts c hcounts]
          exact ih h

end Runs

end VariableCommand

/-- If its reports are taken, `export` or `unset` leaves the environment that its valid arguments
make, one after the other, and tells each invalid one as a whole, in order; the status tells whether
there was one. The last valid argument for a name settles what is known of it: an exported name is
marked and has the value given, a removed one is gone. All other names keep their values and marks,
and only names that are set have marks, after every argument. A command with more arguments does
what two commands do, one after the other. -/
theorem valid_arguments_take_effect_in_turn (c : VariableCommand) (args : List String)
    (stdin : Option Bytes) (d : Desk) :
    (∀ err host, d.err.Takes d.scene.host (c.reports args) err host → ∃ records,
      runOn (c.builtin args stdin) d = (.ok (if args.all c.counts then .success else .failure),
        { d with
          err
          scene := { d.scene with env := c.applied d.scene.env args, host, records } })) ∧
    (∀ old, d.err = .buffer old →
      d.err.Takes d.scene.host (c.reports args) (.buffer (old ++ (c.reports args).flatten))
        d.scene.host) ∧
    (∀ front arg back, args = front ++ arg :: back → c.counts arg = true →
      (∀ later ∈ back, c.counts later = true → c.nameOf later ≠ c.nameOf arg) →
      (c.applied d.scene.env args).standing (c.nameOf arg) =
        c.leaves arg ((c.applied d.scene.env front).standing (c.nameOf arg))) ∧
    (∀ name, (∀ arg ∈ args, c.counts arg = true → c.nameOf arg ≠ name) →
      (c.applied d.scene.env args).standing name = d.scene.env.standing name) ∧
    ((∀ name, Standing.Sound (d.scene.env.standing name)) →
      ∀ front back, args = front ++ back →
        ∀ name, Standing.Sound ((c.applied d.scene.env front).standing name)) ∧
    ∀ front back, c.builtin (front ++ back) stdin = (do
      let first ← c.builtin front stdin
      let second ← c.builtin back stdin
      return first.both second) := by
  refine ⟨fun err host => c.runOn_builtin stdin, fun old herr => ?_, ?_,
    fun name hname => c.standing_applied_of_not_named hname _, fun hsound front _ _ =>
    c.sound_applied hsound front, c.builtin_append stdin⟩
  · rw [herr]
    exact Sink.takes_buffer old d.scene.host (c.reports args)
  · rintro front arg back rfl hcounts hlast
    exact c.standing_applied_of_last hcounts hlast _

/-- A desk with two variables. -/
def keepDesk : Desk where
  scene := { env := .ofList [("GONE", "new"), ("KEEP", "old")] }
  out := .memory
  err := .memory

/-- A name that begins with a digit and one in small letters are told. The value holds an equals
sign and ends in a blank, and it is not lost when its name is exported again. A name that is removed
is gone, although another one could not be. -/
theorem invalid_names_do_not_stop_others :
    (∃ env records,
      runOn (exportAll ["A=1=2 ", "1B=x", " C ", "b", "A"]) keepDesk = (.ok .failure,
        { keepDesk with
          scene := { keepDesk.scene with env, records }
          err := .buffer (Utf8.encode
            "export: not a valid identifier: 1B=x\nexport: not a valid identifier: b\n") }) ∧
      env.standing "A" = ⟨some "1=2 ", false, true⟩ ∧ env.standing "C" = ⟨some "", false, true⟩ ∧
      env.standing "KEEP" = ⟨some "old", false, false⟩ ∧
      env.pairs = [("A", "1=2 "), ("C", ""), ("GONE", "new"), ("KEEP", "old")]) ∧
    ∃ env records,
      runOn (unsetAll ["1B", "GONE"]) keepDesk = (.ok .failure,
        { keepDesk with
          scene := { keepDesk.scene with env, records }
          err := .buffer (Utf8.encode "unset: not a valid identifier: 1B\n") }) ∧
      env.standing "GONE" = {} ∧ env.pairs = [("KEEP", "old")] := by
  constructor
  · have hturn := valid_arguments_take_effect_in_turn .exports ["A=1=2 ", "1B=x", " C ", "b",
      "A"] none keepDesk
    have htold : (VariableCommand.exports.reports ["A=1=2 ", "1B=x", " C ", "b", "A"]).flatten =
        Utf8.encode
          "export: not a valid identifier: 1B=x\nexport: not a valid identifier: b\n" := by
      decide +kernel
    -- Memory takes every report, so the run is the one that the theorem gives.
    have htaken := hturn.2.1 [] rfl
    rw [List.nil_append, htold] at htaken
    obtain ⟨records, hrun⟩ := hturn.1 _ _ htaken
    refine ⟨_, records, hrun, ?_, ?_, hturn.2.2.2.1 "KEEP" (by decide), by decide +kernel⟩
    · exact hturn.2.2.1 ["A=1=2 ", "1B=x", " C ", "b"] "A" [] rfl (by decide) (by simp)
    · exact hturn.2.2.1 ["A=1=2 ", "1B=x"] " C " ["b", "A"] rfl (by decide) (by decide)
  · have hturn := valid_arguments_take_effect_in_turn .unsets ["1B", "GONE"] none keepDesk
    have htold : (VariableCommand.unsets.reports ["1B", "GONE"]).flatten =
        Utf8.encode "unset: not a valid identifier: 1B\n" := by
      decide +kernel
    have htaken := hturn.2.1 [] rfl
    rw [List.nil_append, htold] at htaken
    obtain ⟨records, hrun⟩ := hturn.1 _ _ htaken
    exact ⟨_, records, hrun, hturn.2.2.1 ["1B"] "GONE" [] rfl (by decide)
      (by simp), by decide +kernel⟩

end LineShell
