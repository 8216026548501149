import LineShell.Proofs.Stretches

/-!
# Composition — lines put together from lines

Behind a complete line the lexer starts afresh at a blank, at `<` and at `|`, whatever the line ends
with and whatever follows. A bar also ends the command under construction, so that a line with a bar
between two parts means the stages of the first and then the stages of the second.

* `tokens_append` — the tokens of a complete line and of what follows it;
* `Draft.read_of_tokens_eq` — places are of no importance to a line that can be read;
* `Draft.read_append_pipe` — the stages before and behind a bar;
* `lines_compose` — both laws together.
-/

namespace LineShell

/-! ## Tokens -/

/-- Behind a complete line, a text that does not go on with its last word is read on its own. -/
theorem tokens_append {a b : List Char} (ha : CompleteLine a) (hends : endsWord b = true)
    (hsign : ¬ SignAhead b) : tokens (a ++ b) = tokens a ++ tokens b := by
  rcases exists_cut a with ⟨xs, hx, rfl⟩
  rcases exists_cut b with ⟨ys, hy, rfl⟩
  rw [← text_append, tokens_text (hx.append ha hy hends hsign), List.filterMap_append,
    tokens_text hx, tokens_text hy]

/-- A blank behind a complete line separates. -/
theorem tokens_append_blank {a : List Char} (ha : CompleteLine a) {c : Char}
    (hc : isBlank c = true) (b : List Char) : tokens (a ++ c :: b) = tokens a ++ tokens b := by
  have hends : endsWord (c :: b) = true := endsWord_cons_iff.2 (.inl hc)
  have hsign : ¬ SignAhead (c :: b) := by
    simp only [isBlank, Bool.or_eq_true, beq_iff_eq] at hc
    rcases hc with rfl | rfl <;> simp [signAhead_cons]
  have hskip : tokens (c :: b) = tokens b := by
    rw [tokens, lex, lexFrom_blank hc, tokens_lexFrom]
  rw [tokens_append ha hends hsign, hskip]

/-- An operator of a single sign other than `>`, which takes nothing from the line before it. -/
theorem tokens_append_operator {a : List Char} (ha : CompleteLine a) {c : Char} {token : Token}
    (hc : c = '<' ∨ c = '|') (hop : ∀ b, operator? (c :: b) = some (token, b)) (b : List Char) :
    tokens (a ++ c :: b) = tokens a ++ token :: tokens b := by
  have hends : endsWord (c :: b) = true := by simp [endsWord, hop]
  have hsign : ¬ SignAhead (c :: b) := by
    rcases hc with rfl | rfl <;> simp [signAhead_cons]
  have htake : tokens (c :: b) = token :: tokens b := by
    have hlex := @lexFrom_operator .start [c] b token (hop b)
    rw [tokens, lex, ← List.singleton_append, hlex, List.map_cons, tokens_lexFrom]
  rw [tokens_append ha hends hsign, htake]

/-- A bar behind a complete line is a token of its own. -/
theorem tokens_append_pipe {a : List Char} (ha : CompleteLine a) (b : List Char) :
    tokens (a ++ '|' :: b) = tokens a ++ .pipe :: tokens b :=
  tokens_append_operator ha (.inr rfl) (fun b => by simp [operator?, outputSign?]) b

theorem tokens_append_input {a : List Char} (ha : CompleteLine a) (b : List Char) :
    tokens (a ++ '<' :: b) = tokens a ++ .input :: tokens b :=
  tokens_append_operator ha (.inl rfl) (fun b => by simp [operator?, outputSign?]) b

/-! ## Places -/

/-- Whether and how a text is read does not depend on the column of the word around it. -/
def BodyReader.ColumnFree (sub : BodyReader) : Prop :=
  ∀ column column' inner stages, sub column inner = .ok stages → sub column' inner = .ok stages

/-- No reader of bodies accepts a body at one column and refuses it at another. -/
theorem columnFree_readerWithin (n : Nat) : (readerWithin n).ColumnFree := by
  intro column column' inner stages h
  cases n with
  | zero => cases h
  | succ n => exact h

/-- A word that is accepted at one column is accepted, as the same word, at every other. -/
theorem readParts_eq_ok_of_columnFree {sub : BodyReader} (hsub : sub.ColumnFree) {column : Nat}
    (column' : Nat) {raw : String} {w : Word} (h : readParts sub column raw = .ok w) :
    readParts sub column' raw = .ok w := by
  -- The column is handed to `sub` and nowhere else.
  have htoPart : Segment.toPart sub column = Segment.toPart (fun _ => sub column) column' := by
    funext seg
    cases seg <;> rfl
  rw [readParts, htoPart] at h
  have hextends : BodyReader.Extends (fun _ => sub column) sub :=
    fun column' => hsub column column'
  exact readParts_extends hextends h

namespace Draft

variable {sub : BodyReader} {d : Draft}

/-- Places matter only to the report of a fault. -/
theorem read_of_tokens_eq (hsub : sub.ColumnFree) {xs ys : List Lexeme}
    (hxs : xs.map Lexeme.token = ys.map Lexeme.token) {p : Pipeline} (hp : d.read sub xs = .ok p) :
    d.read sub ys = .ok p := by
  -- The reader looks at tokens only; columns would matter only to an error.
  fun_induction Draft.read sub d xs generalizing ys p with
  | case1 d =>
      obtain rfl : ys = [] := by simpa using hxs.symm
      exact hp
  | case2 d x xs raw htoken ih =>
      rcases bind_eq_ok_iff.1 hp with ⟨w, hw, hrest⟩
      rcases List.map_eq_cons_iff.1 hxs.symm with ⟨y, ys, rfl, hy, hys⟩
      rw [read_word (hy.trans htoken)]
      exact bind_eq_ok_iff.2 ⟨w, readParts_eq_ok_of_columnFree hsub _ hw, ih w hys.symm hrest⟩
  | case3 => cases hp
  | case4 d x role append hop target xs raw htoken _ ih =>
      rcases bind_eq_ok_iff.1 hp with ⟨w, hw, hrest⟩
      rcases List.map_eq_cons_iff.1 hxs.symm with ⟨y, ys, rfl, hy, hys⟩
      rcases List.map_eq_cons_iff.1 hys with ⟨z, ys, rfl, hz, hys⟩
      rw [read_redirection (hy ▸ hop) (hz.trans htoken)]
      exact bind_eq_ok_iff.2 ⟨w, readParts_eq_ok_of_columnFree hsub _ hw, ih w hys.symm hrest⟩
  | case5 => cases hp
  | case6 d x xs hop hword ih =>
      rcases bind_eq_ok_iff.1 hp with ⟨tail, htail, hp⟩
      rcases List.map_eq_cons_iff.1 hxs.symm with ⟨y, ys, rfl, hy, hys⟩
      rw [read_pipe (hy.trans (eq_pipe_of_redirects?_eq_none hop hword))]
      exact bind_eq_ok_iff.2 ⟨tail, ih hys.symm htail, hp⟩

/-! ## Bars -/

/-- If what follows a reading can be split in two, so can the reading. -/
theorem bind_eq_ok_split {α : Type} {x : Except SyntaxError α}
    {f g : α → Except SyntaxError Pipeline} {p : Pipeline} {Q : Pipeline → Prop}
    (h : ∀ a, f a = .ok p ↔ ∃ q, g a = .ok q ∧ Q q) :
    (x >>= f) = .ok p ↔ ∃ q, (x >>= g) = .ok q ∧ Q q := by
  cases x with
  | error e => simp [bind, Except.bind]
  | ok a => exact h a

/-- A bar cuts the lexemes in two. An operator without a target before the bar is a fault with the
bar as it is without. -/
theorem read_append_pipe {xs ys : List Lexeme} {bar : Lexeme} (hbar : bar.token = .pipe)
    {p : Pipeline} :
    d.read sub (xs ++ bar :: ys) = .ok p ↔
      ∃ q, d.read sub xs = .ok q ∧ ∃ r, ({} : Draft).read sub ys = .ok r ∧ p = q ++ r := by
  fun_induction Draft.read sub d xs generalizing p with
  | case1 d =>
      rw [List.nil_append, read_pipe hbar, bind_eq_ok_iff]
      constructor
      · rintro ⟨r, hr, hp⟩
        exact ⟨d.finish, rfl, r, hr, (Except.ok.inj hp).symm⟩
      · rintro ⟨q, hq, r, hr, rfl⟩
        exact ⟨r, hr, by rw [Except.ok.inj hq]⟩
  | case2 d x xs raw htoken ih =>
      rw [List.cons_append, read_word htoken]
      exact bind_eq_ok_split fun w => ih w
  | case3 d x role append hop =>
      rw [List.singleton_append, read_misplaced hop (by simp [hbar])]
      simp
  | case4 d x role append hop target xs raw htoken _ ih =>
      rw [List.cons_append, List.cons_append, read_redirection hop htoken]
      exact bind_eq_ok_split fun w => ih w
  | case5 d x role append hop found xs _ hfound =>
      rw [List.cons_append, List.cons_append, read_misplaced hop hfound]
      simp
  | case6 d x xs hop hword ih =>
      rw [List.cons_append, read_pipe (eq_pipe_of_redirects?_eq_none hop hword), bind_eq_ok_iff]
      constructor
      · rintro ⟨tail, htail, hp⟩
        rcases ih.1 htail with ⟨q, hq, r, hr, rfl⟩
        -- The stage before this bar belongs to the front.
        refine ⟨d.finish ++ q, bind_eq_ok_iff.2 ⟨q, hq, rfl⟩, r, hr, ?_⟩
        rw [← Except.ok.inj hp, List.append_assoc]
      · rintro ⟨q, hq, r, hr, rfl⟩
        rcases bind_eq_ok_iff.1 hq with ⟨tail, htail, hq⟩
        refine ⟨tail ++ r, ih.2 ⟨tail, htail, r, hr, rfl⟩, ?_⟩
        rw [← Except.ok.inj hq, List.append_assoc]

end Draft

/-- A line with a bar in it is read as the stages before the bar and those behind it. -/
theorem parse_append_pipe {a : String} (ha : CompleteLine a.toList) (b : String) (p : Pipeline) :
    Pipeline.parse (a ++ "|" ++ b) = .ok p ↔
      ∃ q r, Pipeline.parse a = .ok q ∧ Pipeline.parse b = .ok r ∧ p = q ++ r := by
  have htokens : tokens (a ++ "|" ++ b).toList = tokens a.toList ++ .pipe :: tokens b.toList := by
    simpa using tokens_append_pipe ha b.toList
  -- The same tokens at other places: the lexemes of both lines with a bar between them.
  let bar : Lexeme := ⟨.pipe, .start, .start⟩
  have hlexemes : (lex (a ++ "|" ++ b).toList).map Lexeme.token =
      (lex a.toList ++ bar :: lex b.toList).map Lexeme.token := by
    rw [List.map_append, List.map_cons]
    exact htokens
  have hfree := columnFree_readerWithin maxNesting
  have hread : Pipeline.parse (a ++ "|" ++ b) = .ok p ↔
      ({} : Draft).read (readerWithin maxNesting) (lex a.toList ++ bar :: lex b.toList) = .ok p :=
    ⟨Draft.read_of_tokens_eq hfree hlexemes, Draft.read_of_tokens_eq hfree hlexemes.symm⟩
  rw [hread, Draft.read_append_pipe rfl]
  constructor
  · rintro ⟨q, hq, r, hr, hp⟩
    exact ⟨q, r, hq, hr, hp⟩
  · rintro ⟨q, r, hq, hr, hp⟩
    exact ⟨q, hq, r, hr, hp⟩

/-- Behind a line that leaves no quote, no substitution and no escape open, lexing starts afresh at
a space, a tab, a bar and an input operator, and a bar joins the pipelines of two lines: the joined
line can be read exactly if both can. -/
theorem lines_compose {a : String} (ha : CompleteLine a.toList) (b : String) :
    tokens (a ++ " " ++ b).toList = tokens a.toList ++ tokens b.toList ∧
    tokens (a ++ "\t" ++ b).toList = tokens a.toList ++ tokens b.toList ∧
    tokens (a ++ "|" ++ b).toList = tokens a.toList ++ [.pipe] ++ tokens b.toList ∧
    tokens (a ++ "<" ++ b).toList = tokens a.toList ++ [.input] ++ tokens b.toList ∧
    ((∃ p, Pipeline.parse (a ++ "|" ++ b) = .ok p) ↔
      (∃ q, Pipeline.parse a = .ok q) ∧ ∃ r, Pipeline.parse b = .ok r) ∧
    ∀ p, Pipeline.parse (a ++ "|" ++ b) = .ok p ↔
      ∃ q r, Pipeline.parse a = .ok q ∧ Pipeline.parse b = .ok r ∧ p = q ++ r := by
  refine ⟨?_, ?_, ?_, ?_, ?_, parse_append_pipe ha b⟩
  · simpa using @tokens_append_blank a.toList ha ' ' (by decide) b.toList
  · simpa using @tokens_append_blank a.toList ha '\t' (by decide) b.toList
  · simpa using tokens_append_pipe ha b.toList
  · simpa using tokens_append_input ha b.toList
  · constructor
    · rintro ⟨p, hp⟩
      rcases (parse_append_pipe ha b p).1 hp with ⟨q, r, hq, hr, -⟩
      exact ⟨⟨q, hq⟩, r, hr⟩
    · rintro ⟨⟨q, hq⟩, r, hr⟩
      exact ⟨q ++ r, (parse_append_pipe ha b _).2 ⟨q, r, hq, hr, rfl⟩⟩

/-- Digits at the end of the first line and an output operator at the head of the second. -/
theorem digits_do_not_join : CompleteLine "echo '|' \"$(ls)\" 2".toList ∧
    tokens ("echo '|' \"$(ls)\" 2" ++ " " ++ ">f").toList =
      tokens "echo '|' \"$(ls)\" 2".toList ++ tokens ">f".toList := by
  have hcomplete : CompleteLine "echo '|' \"$(ls)\" 2".toList := by decide
  exact ⟨hcomplete, (lines_compose hcomplete ">f").1⟩

end LineShell
