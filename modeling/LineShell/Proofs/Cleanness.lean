import LineShell.Proofs.LogBook

/-!
# Cleanness — events that cannot pass for several

A text is clean if it has no control character, and so no line break. This file says which texts of
the log are clean whatever the session holds: lines, commands and names of variables, numbers, spans
of time, and the reasons that the system gives when a program cannot be started. What is left are
the texts of `Log.Event.raw`.

* `Text.Clean`, `Log.Event.Clean` — clean texts, and events all of whose fields are clean;
* `Log.clean_sanitize`, `Log.Policy.clean_line` — what is put in order before it is logged;
* `Fault.Plain`, `StartFault.plain` — why programs are not started;
* `Log.Event.clean_iff` — an event of a line is clean if and only if its raw texts are.
-/

namespace LineShell

/-! ## Clean texts -/

namespace Text

/-- The text has no control character. -/
def Clean (s : String) : Prop :=
  ∀ c ∈ s.toList, isControl c = false

-- Left to itself, the search for an instance may answer with one that goes through all characters.
instance : DecidablePred Clean := fun s =>
  List.decidableBAll (fun c => isControl c = false) s.toList

/-- A text is clean if both of its parts are. -/
@[simp] theorem clean_append {a b : String} : Clean (a ++ b) ↔ Clean a ∧ Clean b := by
  simp [Clean, or_imp, forall_and]

theorem clean_ofList {cs : List Char} :
    Clean (String.ofList cs) ↔ ∀ c ∈ cs, isControl c = false := by
  simp [Clean]

theorem clean_of_all {cs : List Char} (h : cs.all (!isControl ·) = true) :
    Clean (String.ofList cs) := by
  rw [clean_ofList]
  simpa using h

/-- Printable ASCII has no control characters. -/
theorem isControl_of_range {c : Char} (h : 0x20 ≤ c.toNat ∧ c.toNat < 0x7F) :
    isControl c = false := by
  simp only [isControl, Bool.or_eq_false_iff, Bool.and_eq_false_iff, decide_eq_false_iff_not]
  omega

theorem isControl_of_isDigit {c : Char} (h : c.isDigit = true) : isControl c = false := by
  simp only [Char.isDigit, Bool.and_eq_true, decide_eq_true_eq, ge_iff_le, UInt32.le_iff_toNat_le]
    at h
  exact isControl_of_range ⟨Nat.le_trans (by decide) h.1, Nat.lt_of_le_of_lt h.2 (by decide)⟩

theorem isControl_of_isNameRest {c : Char} (h : isNameRest c = true) : isControl c = false := by
  simp only [isNameRest, Bool.or_eq_true, beq_iff_eq] at h
  rcases h with (hupper | hdigit) | rfl
  · have hcapital : 65 ≤ c.val ∧ c.val ≤ 90 := of_decide_eq_true hupper
    rw [UInt32.le_iff_toNat_le, UInt32.le_iff_toNat_le] at hcapital
    exact isControl_of_range ⟨Nat.le_trans (by decide) hcapital.1,
      Nat.lt_of_le_of_lt hcapital.2 (by decide)⟩
  · exact isControl_of_isDigit hdigit
  · decide

/-- No identifier holds a control character. -/
theorem clean_of_isIdentifier {name : String} (h : isIdentifier name = true) : Clean name := by
  unfold isIdentifier at h
  intro c hc
  cases hcs : name.toList with
  | nil =>
      rw [hcs] at hc
      cases hc
  | cons first rest =>
      rw [hcs] at h hc
      simp only [isName, Bool.and_eq_true, List.all_eq_true] at h
      rcases List.mem_cons.1 hc with rfl | hrest
      · refine isControl_of_isNameRest ?_
        have hstart := h.1
        simp only [isNameStart, Bool.or_eq_true] at hstart
        simp only [isNameRest, Bool.or_eq_true]
        exact hstart.imp_left .inl
      · exact isControl_of_isNameRest (h.2 c hrest)

/-! Numbers and spans of time. -/

/-- No numeral holds a control character. -/
theorem clean_repr (n : Nat) : Clean n.repr := by
  intro c hc
  rw [Nat.toList_repr] at hc
  exact isControl_of_isDigit (Nat.isDigit_of_mem_toDigits (by decide) (by decide) hc)

theorem clean_toString_nat (n : Nat) : Clean (toString n) :=
  clean_repr n

theorem clean_toString_int (n : Int) : Clean (toString n) := by
  cases n with
  | ofNat n => exact clean_repr n
  | negSucc n => exact clean_append.2 ⟨by decide, clean_repr _⟩

theorem clean_inUnits (places nanos : Nat) : Clean (Duration.inUnits places nanos) := by
  have hdigits : ∀ n, ∀ c ∈ Duration.padded places n, isControl c = false := by
    intro n c hc
    rcases List.mem_append.1 hc with hzero | hdigit
    · rw [List.eq_of_mem_replicate hzero]
      decide
    · exact isControl_of_isDigit (Nat.isDigit_of_mem_toDigits (by decide) (by decide) hdigit)
  rw [Duration.inUnits]
  split
  · exact clean_repr _
  · refine clean_append.2 ⟨clean_append.2 ⟨clean_repr _, by decide⟩, clean_ofList.2 ?_⟩
    intro c hc
    have hpadded := (List.dropWhile_sublist _).subset (List.mem_reverse.1 hc)
    exact hdigits _ c (List.mem_reverse.1 hpadded)

/-- A duration is shown without control characters. -/
theorem clean_duration (d : Duration) : Clean d.render := by
  rw [Duration.render]
  split
  · exact clean_append.2 ⟨clean_inUnits 9 _, by decide⟩
  · split
    · exact clean_append.2 ⟨clean_inUnits 6 _, by decide⟩
    · split
      · exact clean_append.2 ⟨clean_inUnits 3 _, by decide⟩
      · exact clean_append.2 ⟨clean_repr _, by decide⟩

/-- An outcome is shown without control characters. -/
theorem clean_outcome (o : Outcome) : Clean o.render := by
  cases o with
  | finished code =>
      exact clean_append.2 ⟨clean_append.2 ⟨by decide, clean_toString_int code⟩, by decide⟩
  | exited code =>
      exact clean_append.2 ⟨clean_append.2 ⟨by decide, clean_toString_int code⟩, by decide⟩
  | aborted code =>
      exact clean_append.2 ⟨clean_append.2 ⟨by decide, clean_toString_int code⟩, by decide⟩

end Text

/-! ## Texts that are put in order -/

namespace Log

/-- Nothing is left to clean after sanitizing. -/
theorem clean_sanitize (s : String) : Text.Clean (sanitize s) := by
  rw [sanitize, Text.clean_ofList]
  intro c hc
  rcases List.mem_flatMap.1 hc with ⟨d, -, hd⟩
  unfold sanitizeChar at hd
  split at hd
  · simp only [List.mem_cons, List.not_mem_nil, or_false] at hd
    rcases hd with rfl | rfl <;> decide
  · simp only [List.mem_cons, List.not_mem_nil, or_false] at hd
    rcases hd with rfl | rfl <;> decide
  · simp only [List.mem_cons, List.not_mem_nil, or_false] at hd
    rcases hd with rfl | rfl <;> decide
  · split at hd
    · cases hd
    · rw [List.mem_singleton] at hd
      subst hd
      simpa using ‹¬ Text.isControl c = true›

namespace Policy

theorem fit_isPrefix (room : Nat) (cs : List Char) : fit room cs <+: cs := by
  induction cs generalizing room with
  | nil => exact List.prefix_rfl
  | cons c cs ih =>
      rw [fit]
      split
      · exact List.cons_prefix_cons.2 ⟨rfl, ih _⟩
      · exact List.nil_prefix

/-- What is cut short stays clean, the mark of the cut included. -/
theorem clean_truncate (p : Policy) {value : String} (h : Text.Clean value) :
    Text.Clean (p.truncate value) := by
  rw [truncate]
  dsimp only
  split
  · exact h
  · have hkept : Text.Clean (String.ofList (fit p.maxLength value.toList)) := by
      rw [Text.clean_ofList]
      intro c hc
      exact h c ((fit_isPrefix _ _).subset hc)
    refine Text.clean_append.2 ⟨Text.clean_append.2 ⟨Text.clean_append.2 ⟨hkept, by decide⟩,
      ?_⟩, by decide⟩
    exact Text.clean_toString_nat _

/-- A line is logged without control characters, in full or as a count. -/
theorem clean_line (p : Policy) (line : String) : Text.Clean (p.line line) := by
  rw [Policy.line]
  split
  · exact p.clean_truncate (clean_sanitize line)
  · simp only [Text.clean_append]
    refine ⟨⟨⟨⟨by decide, Text.clean_toString_nat _⟩, by decide⟩,
      Text.clean_toString_nat _⟩, by decide⟩

end Policy

end Log

/-! ## Why programs are not started -/

/-- The fault is one that the system gives, with a text that is known beforehand. -/
def Fault.Plain : Fault → Prop
  | .other _ => False
  | _ => True

theorem clean_reasonTexts : ∀ text ∈ reasonTexts, Text.Clean text := by
  rw [reasonTexts]
  -- One text at a time, by its characters.
  repeat' first
    | exact List.forall_mem_nil _
    | refine List.forall_mem_cons.2 ⟨Text.clean_of_all (by decide), ?_⟩

/-- The texts for error numbers are clean. -/
theorem clean_reasonText (code : Int) : Text.Clean (reasonText code) := by
  have hunknown : Text.Clean s!"Unknown error {code}" := by
    exact Text.clean_append.2 ⟨by decide, Text.clean_toString_int code⟩
  unfold reasonText
  split
  · exact hunknown
  · exact hunknown
  · next text _ hfound =>
    rcases Option.bind_eq_some_iff.1 hfound with ⟨n, -, hn⟩
    exact clean_reasonTexts text (List.mem_of_getElem? hn)

/-- The message of a plain fault is clean. -/
theorem Fault.Plain.clean {fault : Fault} (h : fault.Plain) : Text.Clean fault.message := by
  cases fault with
  | os code =>
      refine Text.clean_append.2 ⟨Text.clean_append.2 ⟨Text.clean_append.2 ⟨?_, by decide⟩,
        ?_⟩, by decide⟩
      · exact clean_reasonText code
      · exact Text.clean_toString_int code
  | nulInPath => decide
  | nulInProgram => decide
  | notText => decide
  | other text => exact h.elim

/-- That a program cannot be started is always for a plain reason. -/
theorem StartFault.plain (fault : StartFault) : fault.toFault.Plain := by
  cases fault <;> trivial

/-! ## Events -/

namespace Log.Event

/-- No field of the event has a control character. -/
def Clean (e : Event) : Prop :=
  ∀ field ∈ e.fields, Text.Clean field.2

/-- The texts that an event carries as they are in the session. -/
def raw : Event → List String
  | .expandedVariable _ value => [value]
  | .openedRedirection _ path _ => [path]
  | .spawning program _ | .spawnFailed program _ | .killedAfterTimeout program _
    | .exited program _ => [program]
  | .changingDirectory origin goal => [origin, goal]
  | _ => []

/-- All other texts of the event are clean. Reading a dotenv file is no part of running a line, and
neither is what the process has to say about a line that failed. -/
def Tidy : Event → Prop
  | .executingLine text | .runningCommand text _ _ | .descriptorNotConnected text
    | .expandedVariable text _
  | .unsetVariable text => Text.Clean text
  | .openedRedirection role _ _ => Text.Clean role.render
  | .spawnFailed _ fault | .feedEndedEarly fault => fault.Plain
  | .loadedDotenvFile .. | .unreadableDotenvFile .. | .dotenvLoaded .. | .lineFailed .. => False
  | _ => True

/-- A tidy event shows clean text if the texts that it does not clean itself are clean. -/
theorem clean_iff {e : Event} (h : e.Tidy) : e.Clean ↔ ∀ text ∈ e.raw, Text.Clean text := by
  -- Numbers, names and flags are clean, and what is left of the fields is raw.
  have hbool : ∀ b : Bool, Text.Clean (if b then "true" else "false") := by decide
  cases e with
  | executingLine line => simpa [Clean, fields, raw, Tidy] using h
  | reading step => cases step <;> simp [Clean, fields, raw, Text.clean_repr]
  | stageStarting stage stages => simp [Clean, fields, raw, Text.clean_repr]
  | stageFinished stage outcome => simp [Clean, fields, raw, Text.clean_repr, Text.clean_outcome]
  | runningCommand command args redirects =>
      simpa [Clean, fields, raw, Tidy, Text.clean_repr] using h
  | openedRedirection role path append =>
      have hrole : Text.Clean role.render := h
      simp [Clean, fields, raw, hrole, hbool]
  | descriptorNotConnected digits => simpa [Clean, fields, raw, Tidy] using h
  | expandedVariable name value =>
      have hname : Text.Clean name := h
      simp [Clean, fields, raw, hname]
  | spawning program args => simp [Clean, fields, raw, Text.clean_repr]
  | spawnFailed program fault => simp [Clean, fields, raw, Fault.Plain.clean h]
  | feedEndedEarly fault => simpa [Clean, fields, raw] using Fault.Plain.clean h
  | killedAfterTimeout program limit => simp [Clean, fields, raw, Text.clean_duration]
  | exited program code =>
      have hcode : Text.Clean code.repr := Text.clean_toString_int code
      simp [Clean, fields, raw, hcode]
  | changingDirectory origin goal => simp [Clean, fields, raw]
  | unsetVariable name => simpa [Clean, fields, raw, Tidy] using h
  | loadedDotenvFile path count => exact h.elim
  | unreadableDotenvFile path fault => exact h.elim
  | dotenvLoaded path loaded => exact h.elim
  | lineFailed error => exact h.elim

theorem clean_of_raw_eq_nil {e : Event} (h : e.Tidy) (hraw : e.raw = []) : e.Clean := by
  rw [clean_iff h, hraw]
  exact List.forall_mem_nil _

end Log.Event

end LineShell
