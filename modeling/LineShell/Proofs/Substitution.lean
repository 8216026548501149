import LineShell.Proofs.Quoting

/-!
# Substitution — a whole line between `$(` and `)`

A line in a substitution is handled twice. The scanner looks for the closing parenthesis and counts
quotes straight through the line; later the lexer reads the line, and starts counting afresh inside
every substitution that the line holds. This file says when the two agree.

* `Follows` — the lexer and the scanner are at corresponding places of a line;
* `balanced_of_avoids` — on a complete line without loose parentheses they stay together, as long as
  no double quote stands in a substitution that is itself in double quotes;
* `line_nests_iff_balanced` — a line is taken as the text of a substitution exactly when it is
  balanced.
-/

namespace LineShell

open Reading

/-! ## Lines -/

/-- The lexer reads the line to its end with no quote, no escape and no substitution open. Blanks
and operators leave the state of `fresh`, so that the automaton can run through a whole line. -/
def CompleteLine (line : List Char) : Prop :=
  (Reading.fresh.run line).1.mayEnd = true

instance (line : List Char) : Decidable (CompleteLine line) :=
  inferInstanceAs (Decidable (_ = true))

namespace Reading

/-- No character of the run is read in a state in which it is `bad`. -/
def Avoids (bad : Reading → Char → Bool) : Reading → List Char → Prop
  | _, [] => True
  | s, c :: cs => bad s c = false ∧ Avoids bad (s.step c).1 cs

instance decidableAvoids (bad : Reading → Char → Bool) :
    (s : Reading) → (cs : List Char) → Decidable (Avoids bad s cs)
  | _, [] => .isTrue trivial
  | s, c :: cs =>
      have := decidableAvoids bad (s.step c).1 cs
      inferInstanceAs (Decidable (_ ∧ _))

/-- A parenthesis outside quotes, escapes and substitutions, other than one that opens a
substitution. -/
def loose : Reading → Char → Bool
  | .text .bare dollar, c => c == ')' || (c == '(' && !dollar)
  | _, _ => false

/-- A double quote in a substitution that stands in double quotes. -/
def requoted : Reading → Char → Bool
  | .body _ .double, c => c == '"'
  | _, _ => false

end Reading

/-! ## The lexer and the scanner side by side -/

/-- The lexer is in the first state while the scanner, started one parenthesis earlier, is in the
second. A substitution in double quotes is plain quoted text for the scanner. -/
inductive Follows : Reading → Body → Prop
  | text {q : Quote} {dollar : Bool} (hd : dollar = true → q ≠ .single) :
      Follows (.text q dollar) ⟨1, q, false⟩
  | escape {q : Quote} : Follows (.escape q) ⟨1, q, true⟩
  | body {b : Body} (hb : b.depth ≠ 0) : Follows (.body b .bare) { b with depth := b.depth + 1 }
  | quoted {b : Body} {escaped : Bool} (hb : b.depth ≠ 0) :
      Follows (.body b .double) ⟨1, .double, escaped⟩

namespace Follows

/-- What follows a reading is open. -/
theorem depth_ne_zero {s : Reading} {b : Body} (h : Follows s b) : b.depth ≠ 0 := by
  cases h <;> simp

/-- Where a word may end, the scanner is back where it started. -/
theorem eq_opened {s : Reading} {b : Body} (h : Follows s b) (hs : s.mayEnd = true) :
    b = .opened := by
  cases h with
  | text =>
      rename_i q _ _
      cases q with
      | bare => rfl
      | single => cases hs
      | double => cases hs
  | escape => cases hs
  | body => cases hs
  | quoted => cases hs

/-- A step outside any nested body is followed. -/
theorem step_text {q : Quote} {dollar : Bool} {c : Char} (hd : dollar = true → q ≠ .single)
    (hloose : (Reading.text q dollar).loose c = false) :
    Follows ((Reading.text q dollar).step c).1 (Body.step ⟨1, q, false⟩ c) := by
  by_cases hsub : dollar = true ∧ c = '('
  · rcases hsub with ⟨rfl, rfl⟩
    -- Outside quotes the scanner counts the parenthesis too, in double quotes it does not see it.
    rw [step_substitution]
    cases q with
    | bare => exact .body (by decide)
    | single => exact absurd rfl (hd rfl)
    | double => exact .quoted (by decide)
  by_cases hslash : c = '\\' ∧ q ≠ .single
  · have hlex : ((Reading.text q dollar).step c).1 = .escape q := by
      simp [Reading.step, hslash]
    have hscan : Body.step ⟨1, q, false⟩ c = ⟨1, q, true⟩ := by
      simp [Body.step, hslash]
    rw [hlex, hscan]
    exact .escape
  -- What is left is no parenthesis that counts, so the scanner only looks for quotes.
  have hcounts : ¬ Body.Counts q c := by
    rintro ⟨rfl, rfl | rfl⟩
    · exact hsub ⟨by simpa [loose] using hloose, rfl⟩
    · simp [loose] at hloose
  have hscan : Body.step ⟨1, q, false⟩ c = ⟨1, q.toggle c, false⟩ :=
    Body.step_other rfl hslash hcounts
  rw [hscan]
  by_cases htoggle : q.toggle c = q
  · rw [htoggle]
    by_cases hdollar : c = '$'
    · subst hdollar
      by_cases hq : q = .single
      · -- A dollar sign in single quotes opens nothing.
        subst hq
        have hlex : ((Reading.text .single dollar).step '$').1 = .text .single false := by
          simp [Reading.step, htoggle]
        rw [hlex]
        exact .text (by simp)
      · rw [step_dollar hq]
        exact .text (fun _ => hq)
    · have hinert : Inert q c := by
        exact ⟨fun hc => Decidable.byContradiction fun hq => hslash ⟨hc, hq⟩, htoggle, hdollar⟩
      rw [step_inert hinert (fun h hc => hsub ⟨h, hc⟩)]
      exact .text (by simp)
  · have hlex : ((Reading.text q dollar).step c).1 = .text (q.toggle c) false := by
      simp [Reading.step, hsub, hslash, htoggle]
    rw [hlex]
    exact .text (by simp)

/-- One parenthesis more around an open substitution changes nothing else. -/
theorem step_deeper {b : Body} {c : Char} (hb : b.depth ≠ 0) :
    Body.step { b with depth := b.depth + 1 } c =
      { b.step c with depth := (b.step c).depth + 1 } := by
  have hdepth : b.depth + 1 - 1 = b.depth - 1 + 1 := by omega
  unfold Body.step
  grind

/-- A step inside a nested body is followed one level up. -/
theorem step_body {b : Body} {c : Char} (hb : b.depth ≠ 0) :
    Follows ((Reading.body b .bare).step c).1 (Body.step { b with depth := b.depth + 1 } c) := by
  rw [step_deeper hb]
  by_cases hclose : (b.step c).depth = 0
  · rcases Body.step_depth_eq_zero hb hclose with ⟨rfl, hq, he, -⟩
    rw [step_body_of_close hclose, hclose, Body.step_close he hq, hq, he]
    exact .text (by simp)
  · rw [step_body_of_open hclose]
    exact .body hclose

/-- A step inside a quoted nested body is followed as text between quotes. -/
theorem step_quoted {b : Body} {escaped : Bool} {c : Char} (hb : b.depth ≠ 0) (hc : c ≠ '"') :
    Follows ((Reading.body b .double).step c).1 (Body.step ⟨1, .double, escaped⟩ c) := by
  have hquote : (Body.step ⟨1, .double, escaped⟩ c) =
      ⟨1, .double, !escaped && c == '\\'⟩ := by
    unfold Body.step
    cases escaped <;> by_cases hs : c = '\\' <;> simp [hs, hc, Quote.toggle]
  rw [hquote]
  by_cases hclose : (b.step c).depth = 0
  · -- Escaped or not, the closing parenthesis leaves the scanner in its double quotes.
    rcases Body.step_depth_eq_zero hb hclose with ⟨rfl, -⟩
    have htext : Follows (.text .double false) ⟨1, .double, false⟩ := .text (by simp)
    simpa [step_body_of_close hclose] using htext
  · rw [step_body_of_open hclose]
    exact .quoted hclose

/-- One character keeps the lexer and the scanner together. -/
theorem step {s : Reading} {b : Body} {c : Char} (h : Follows s b) (hloose : s.loose c = false)
    (hquote : s.requoted c = false) : Follows (s.step c).1 (b.step c) := by
  cases h with
  | text hd => exact step_text hd hloose
  | escape =>
      rename_i q
      have hlex : ((Reading.escape q).step c).1 = .text q false := by
        simp only [Reading.step]
        split <;> rfl
      rw [hlex, Body.step_escaped rfl]
      exact .text (by simp)
  | body hb => exact step_body hb
  | quoted hb => exact step_quoted hb (by simpa [requoted] using hquote)

/-- A whole line keeps them together, and does not close the substitution. -/
theorem run {s : Reading} {b : Body} {cs : List Char} (h : Follows s b)
    (hloose : s.Avoids loose cs) (hquote : s.Avoids requoted cs) :
    b.StaysOpen cs ∧ Follows (s.run cs).1 (b.run cs) := by
  induction cs generalizing s b with
  | nil => exact ⟨trivial, h⟩
  | cons c cs ih =>
      have hstep := h.step hloose.1 hquote.1
      have htail := ih hstep hloose.2 hquote.2
      exact ⟨⟨hstep.depth_ne_zero, htail.1⟩, htail.2⟩

end Follows

/-- A complete line without loose parentheses is balanced, unless it holds a double quote in a
substitution in double quotes. -/
theorem balanced_of_avoids {line : List Char} (hline : CompleteLine line)
    (hloose : Reading.fresh.Avoids loose line) (hquote : Reading.fresh.Avoids requoted line) :
    Body.Balanced line := by
  have hstart : Follows .fresh .opened := .text (by simp)
  rcases hstart.run hloose hquote with ⟨hopen, hend⟩
  have hlast := hend.eq_opened hline
  have hsplit : Body.opened.split? (line ++ [')']) = some (line, []) :=
    Body.split?_eq_some_iff.2 ⟨')', rfl, hopen, by rw [hlast]; decide⟩
  exact Body.split?_eq_self_iff_balanced.1 hsplit

/-! ## What the lexer leaves of a substitution -/

/-- A body that does not close takes all that is left. -/
theorem readWord_body_of_none {b : Body} {q : Quote} {cs : List Char} (h : b.split? cs = none) :
    readWord (.body b q) cs = (cs, []) := by
  induction cs generalizing b with
  | nil => rfl
  | cons c cs ih =>
      rcases Body.split?_cons_eq_none_iff.1 h with ⟨hc, htail⟩
      simp [readWord, mayEnd, Reading.step, hc, ih htail]

/-- A balanced body is taken up to its parenthesis. -/
theorem readWord_body_of_balanced {q : Quote} {inner rest : List Char}
    (h : Body.Balanced inner) :
    readWord (.body .opened q) (inner ++ ')' :: rest) =
      (inner ++ ')' :: (readWord (.text q false) rest).1, (readWord (.text q false) rest).2) := by
  have hclose : Body.opened.split? (inner ++ [')']) = some (inner, []) :=
    Body.split?_eq_self_iff_balanced.2 h
  have hread := readWord_of_reads (@Reads.body _ q _ _ rest hclose)
  simpa using hread

/-- The lexer copies a substitution whole, so that the scanner finds the same text in the copy. -/
theorem substitutionBody_readWord (q : Quote) (cs : List Char) :
    (substitutionBody (readWord (.body .opened q) cs).1).1 = (substitutionBody cs).1 := by
  cases hsplit : Body.opened.split? cs with
  | none => rw [readWord_body_of_none hsplit]
  | some r =>
      rcases r with ⟨inner, rest⟩
      have hcs := Body.eq_append_close_of_split? (by decide) hsplit
      subst hcs
      have hbalanced : Body.Balanced inner := Body.split?_eq_self_iff_balanced.1 hsplit
      rw [readWord_body_of_balanced hbalanced, substitutionBody_eq_iff.2 hbalanced,
        substitutionBody_eq_iff.2 hbalanced]

/-- What the scanner takes from `line)` is `line` only if that is balanced. -/
theorem balanced_of_substitutionBody {line : List Char}
    (h : (substitutionBody (line ++ [')'])).1 = line) : Body.Balanced line := by
  cases hsplit : Body.opened.split? (line ++ [')']) with
  | none => simp [substitutionBody, hsplit] at h
  | some r =>
      rcases r with ⟨inner, rest⟩
      have hcs := Body.eq_append_close_of_split? (by decide) hsplit
      have hinner : inner = line := by simpa [substitutionBody, hsplit] using h
      subst hinner
      have hrest : rest = [] := by simpa using hcs
      subst hrest
      exact Body.split?_eq_self_iff_balanced.1 hsplit

/-! ## A line in an argument -/

/-- The line `echo $(line)`. -/
def echoLine (line : List Char) : List Char :=
  "echo $(".toList ++ (line ++ [')'])

/-- The command `echo` with one argument, the output of a pipeline. -/
def echoOutput (p : Pipeline) : Pipeline :=
  [⟨[.text "echo"], [[.substitution p]], []⟩]

/-- The line has two words, and the second begins with the substitution. -/
theorem lex_echo (cs : List Char) : ∃ stop,
    lex ("echo $(".toList ++ cs) =
      ⟨.word "echo", ⟨1, 0⟩, ⟨5, 4⟩⟩ ::
      ⟨.word (String.ofList ('$' :: '(' :: (readWord (.body .opened .bare) cs).1)), ⟨6, 5⟩, stop⟩ ::
      lexFrom stop (readWord (.body .opened .bare) cs).2 := by
  have hplain : ∀ c ∈ "echo".toList, isOrdinary c = true := List.all_eq_true.1 (by decide)
  have hread : Reads .fresh "echo".toList "echo".toList .fresh (' ' :: '$' :: '(' :: cs) :=
    .plain (fun c hc => plainUnder_of_isOrdinary (hplain c hc)) (by simp [signAhead_cons])
  -- The first word ends at the blank, the second takes the opening signs and then the body.
  have hname := @lexFrom_word .start _ _ _ _ (by decide) hread
    (.inr ⟨rfl, by simp [endsWord, isBlank]⟩)
  have hends : endsWord ('$' :: '(' :: cs) = false :=
    endsWord_eq_false_of_char (by decide) (by decide) (by decide) _
  have hopen : endsWord ('(' :: cs) = false :=
    endsWord_eq_false_of_char (by decide) (by decide) (by decide) _
  have hword : readWord .fresh ('$' :: '(' :: cs) =
      ('$' :: '(' :: (readWord (.body .opened .bare) cs).1,
        (readWord (.body .opened .bare) cs).2) := by
    have hdollar : Reading.fresh.step '$' = (.text .bare true, ['$']) := step_dollar (by decide)
    simp [readWord, hends, hopen, hdollar, step_substitution]
  have hrest := @lexFrom_readWord ⟨6, 5⟩ '$' ('(' :: cs) hends
  rw [hword] at hrest
  refine ⟨Position.past ⟨6, 5⟩ (before ('$' :: '(' :: cs) (readWord (.body .opened .bare) cs).2),
    ?_⟩
  calc lex ("echo $(".toList ++ cs)
      = ⟨.word "echo", ⟨1, 0⟩, ⟨5, 4⟩⟩ :: lexFrom ⟨5, 4⟩ (' ' :: '$' :: '(' :: cs) := hname
    _ = ⟨.word "echo", ⟨1, 0⟩, ⟨5, 4⟩⟩ :: lexFrom ⟨6, 5⟩ ('$' :: '(' :: cs) := by
        rw [lexFrom_blank (by decide)]
        rfl
    _ = _ := by rw [hrest]; rfl

theorem readParts_echo {sub : BodyReader} {column : Nat} :
    readParts sub column "echo" = .ok [.text "echo"] := by
  have hread := (@Denotes.literals sub column "echo".toList (by decide)).readParts_eq
  simpa [Word.merge, Word.attach, unprotect, protectedDollar] using hread

theorem readParts_nil {sub : BodyReader} {column : Nat} :
    readParts sub column (String.ofList []) = .ok [] := by
  simp [readParts, Segment.split, pure, Except.pure]

/-- A word that begins with a substitution: its text is read first, then what follows it. -/
theorem readParts_opened {sub : BodyReader} {column : Nat} (cs : List Char) :
    readParts sub column (String.ofList ('$' :: '(' :: cs)) =
      sub column (substitutionBody cs).1 >>= fun p =>
        (readParts sub column (String.ofList (substitutionBody cs).2)).map (.substitution p ::
          ·) := by
  rw [readParts_eq_merge, readParts_eq_merge, String.toList_ofList, String.toList_ofList, chunks]
  cases hsub : sub column (substitutionBody cs).1 with
  | error e =>
      have hpart : (Chunk.substitution (substitutionBody cs).1 (closes cs)).toPart sub column =
          .error e := by
        simp [Chunk.toPart, hsub, Except.map]
      rw [mapM_cons_of_error hpart]
      rfl
  | ok p =>
      have hpart : (Chunk.substitution (substitutionBody cs).1 (closes cs)).toPart sub column =
          .ok (.substitution p) := by
        simp [Chunk.toPart, hsub, Except.map]
      rw [merge_mapM_cons hpart]
      rfl

/-- A balanced line is the text that the parser hands down. -/
theorem read_echoLine {line : List Char} (h : Body.Balanced line) (sub : BodyReader) :
    ({} : Draft).read sub (lex (echoLine line)) = (sub 6 line).map echoOutput := by
  rcases lex_echo (line ++ [')']) with ⟨stop, hlex⟩
  rw [readWord_body_of_balanced h] at hlex
  unfold echoLine
  rw [hlex, Draft.read_word rfl, readParts_echo]
  simp only [readWord, lexFrom_nil, bind, Except.bind]
  rw [Draft.read_word rfl, readParts_opened, substitutionBody_eq_iff.2 h, readParts_nil]
  cases sub 6 line with
  | error e => rfl
  | ok p => rfl

/-- If the parser hands down the line, whatever the reader makes of it, the line is balanced. -/
theorem balanced_of_read_echoLine {line : List Char}
    (h : ∀ sub : BodyReader,
      ({} : Draft).read sub (lex (echoLine line)) = (sub 6 line).map echoOutput) :
    Body.Balanced line := by
  apply balanced_of_substitutionBody
  apply Decidable.byContradiction
  intro hne
  -- A reader that knows nothing but the line fails on any other text.
  let only : BodyReader := fun column inner =>
    if inner = line then .ok [] else .error ⟨.tooDeep, column⟩
  have hfail : only 6 (substitutionBody (readWord (.body .opened .bare) (line ++ [')'])).1).1 =
      .error ⟨.tooDeep, 6⟩ := by
    rw [substitutionBody_readWord]
    simp [only, hne]
  have hread := h only
  rcases lex_echo (line ++ [')']) with ⟨stop, hlex⟩
  unfold echoLine at hread
  rw [hlex, Draft.read_word rfl, readParts_echo] at hread
  simp only [bind, Except.bind] at hread
  rw [Draft.read_word rfl, readParts_opened, hfail] at hread
  simp [only, bind, Except.bind, Except.map] at hread

/-- The argument can be the output of a pipeline only if that pipeline is what the text cut out of
the line is read as. -/
theorem cut_of_read_echoLine {sub : BodyReader} {line : List Char} {p : Pipeline}
    (h : ({} : Draft).read sub (lex (echoLine line)) = .ok (echoOutput p)) :
    sub 6 (substitutionBody (line ++ [')'])).1 = .ok p := by
  rcases lex_echo (line ++ [')']) with ⟨stop, hlex⟩
  unfold echoLine at h
  rw [hlex, Draft.read_word rfl, readParts_echo] at h
  simp only [bind, Except.bind] at h
  rw [Draft.read_word rfl] at h
  rcases bind_eq_ok_iff.1 h with ⟨w, hw, hrest⟩
  rcases Draft.args_prefix_of_read rfl hrest with ⟨s, stages, heq, hargs⟩
  -- The word read first is the first argument, and so the only one.
  have hword : w = [.substitution p] := by
    rcases List.cons.inj heq with ⟨rfl, -⟩
    simpa [Draft.addWord] using hargs
  subst hword
  rw [readParts_opened, substitutionBody_readWord] at hw
  rcases bind_eq_ok_iff.1 hw with ⟨q, hq, hmap⟩
  have hqp : q = p := by
    cases htail : readParts sub 6 (String.ofList
        (substitutionBody (readWord (.body .opened .bare) (line ++ [')'])).1).2) with
    | error e => simp [htail, Except.map] at hmap
    | ok ps =>
        simp only [htail, Except.map, Except.ok.injEq, List.cons.injEq,
          Part.substitution.injEq] at hmap
        exact hmap.1
  rw [hq, hqp]

/-- Between `$(` and `)` the parser takes a line whole exactly when it is balanced, and then the
argument is the output of that line, as long as there are levels left for it. From a line that is
not balanced another text is cut out, and the argument can be the same only if that text happens to
be read alike. A complete line without loose parentheses is balanced unless it holds a double quote
in a substitution in double quotes. -/
theorem line_nests_iff_balanced (line : List Char) :
    ((∀ sub : BodyReader,
      ({} : Draft).read sub (lex (echoLine line)) = (sub 6 line).map echoOutput) ↔
        Body.Balanced line) ∧
    (Body.Balanced line → ∀ n p, n < maxNesting → parseWithin n line = .ok p →
      Pipeline.parse (String.ofList line) = .ok p ∧
        Pipeline.parse (String.ofList (echoLine line)) = .ok (echoOutput p)) ∧
    (¬ Body.Balanced line → (substitutionBody (line ++ [')'])).1 ≠ line ∧
      ∀ p, Pipeline.parse (String.ofList (echoLine line)) = .ok (echoOutput p) →
        parseWithin (maxNesting - 1) (substitutionBody (line ++ [')'])).1 = .ok p) ∧
    (CompleteLine line → Reading.fresh.Avoids loose line → Reading.fresh.Avoids requoted line →
      Body.Balanced line) := by
  refine ⟨⟨balanced_of_read_echoLine, read_echoLine⟩, ?_, ?_, balanced_of_avoids⟩
  · intro hbalanced n p hn hp
    constructor
    · rw [Pipeline.parse, String.toList_ofList]
      exact parseWithin_mono (Nat.le_of_lt hn) hp
    · rw [Pipeline.parse, String.toList_ofList, parseWithin_eq_read, read_echoLine hbalanced,
        readerWithin_eq_ok hn hp]
      rfl
  · intro hunbalanced
    refine ⟨?_, ?_⟩
    · intro hcut
      exact hunbalanced (balanced_of_substitutionBody hcut)
    · intro p hp
      rw [Pipeline.parse, String.toList_ofList, parseWithin_eq_read] at hp
      exact cut_of_read_echoLine hp

/-- The line `ls '(' "$(pwd)" | wc`, with a quoted parenthesis and a substitution in quotes. -/
theorem quoted_line_nests :
    CompleteLine "ls '(' \"$(pwd)\" | wc".toList ∧
      Reading.fresh.Avoids loose "ls '(' \"$(pwd)\" | wc".toList ∧
      Reading.fresh.Avoids requoted "ls '(' \"$(pwd)\" | wc".toList ∧
      Pipeline.parse "echo $(ls '(' \"$(pwd)\" | wc)" =
        .ok (echoOutput [⟨[.text "ls"], [[.text "("], [.substitution [⟨[.text "pwd"], [], []⟩]]],
          []⟩, ⟨[.text "wc"], [], []⟩]) := by
  have hcomplete : CompleteLine "ls '(' \"$(pwd)\" | wc".toList := by decide
  have hloose : Reading.fresh.Avoids loose "ls '(' \"$(pwd)\" | wc".toList := by decide
  have hquote : Reading.fresh.Avoids requoted "ls '(' \"$(pwd)\" | wc".toList := by decide
  have hlaw := line_nests_iff_balanced "ls '(' \"$(pwd)\" | wc".toList
  have hbalanced := hlaw.2.2.2 hcomplete hloose hquote
  exact ⟨hcomplete, hloose, hquote,
    (hlaw.2.1 hbalanced 1 _ (by decide) (by with_unfolding_all rfl)).2⟩

/-- In `echo $("$(echo ")")")` the scanner closes the substitution at the quoted parenthesis. -/
theorem quoted_parenthesis_cuts_line :
    CompleteLine "\"$(echo \")\")\"".toList ∧
      Reading.fresh.Avoids loose "\"$(echo \")\")\"".toList ∧
      parseWithin 1 "\"$(echo \")\")\"".toList =
        .ok [⟨[.substitution [⟨[.text "echo"], [[.text ")"]], []⟩]], [], []⟩] ∧
      ¬ Pipeline.parse "echo $(\"$(echo \")\")\")" =
        .ok (echoOutput [⟨[.substitution [⟨[.text "echo"], [[.text ")"]], []⟩]], [], []⟩]) := by
  have hparse : Pipeline.parse "echo $(\"$(echo \")\")\")" =
      .ok [⟨[.text "echo"], [[.substitution [⟨[.substitution [⟨[.text "echo"], [], []⟩]], [], []⟩],
        .text "))"]], []⟩] := by with_unfolding_all rfl
  refine ⟨by decide, by decide, by with_unfolding_all rfl, ?_⟩
  rw [hparse]
  simp [echoOutput]

end LineShell
