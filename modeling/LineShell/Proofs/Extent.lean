import LineShell.Proofs.Substitution

/-!
# Extent — where a substitution stops, for the lexer and for the reader of words

The text of a substitution is cut out twice: by the lexer, which looks for the end of the word
around it, and by the reader of parts, which works on what the lexer left. Both ask the same
scanner, but of different texts.

* `tokens_lexFrom` — the tokens of a text do not depend on the place where it starts;
* `lexFrom_closed`, `lexFrom_unclosed` — the lexeme of a word that begins with a substitution;
* `parse_word_closed`, `parse_word_unclosed` — the parts of such a word;
* `substitution_is_cut_alike` — both cut at the scanner's closing parenthesis, whatever follows it.
-/

namespace LineShell

open Reading

/-! ## Tokens without their places -/

/-- Where a text starts moves the places of its lexemes and nothing else. -/
theorem tokens_lexFrom (pos : Position) (cs : List Char) :
    (lexFrom pos cs).map Lexeme.token = tokens cs := by
  -- Both sides are compared at two arbitrary places, since the second place moves as well.
  suffices h : ∀ pos', (lexFrom pos cs).map Lexeme.token = (lexFrom pos' cs).map Lexeme.token from
    h .start
  fun_induction lexFrom pos cs with
  | case1 =>
      intro pos'
      rw [lexFrom_nil]
  | case2 pos c cs hc ih =>
      intro pos'
      rw [lexFrom_blank hc]
      exact ih _
  | case3 pos c cs hc token rest hop _ stop ih =>
      intro pos'
      rcases operator?_consumes hop with ⟨-, v, hv⟩
      rw [hv] at hop ⊢
      rw [lexFrom_operator hop, List.map_cons, List.map_cons, ih (pos'.past v)]
  | case4 pos c cs hc hop _ stop text rest htext ih =>
      intro pos'
      have hends := endsWord_eq_false hc hop
      have htext' : (readWord .fresh (c :: cs)).1.isEmpty = true := by
        rw [← wordFrom_eq_readWord hends]
        exact htext
      rw [lexFrom_readWord hends]
      simp only [htext', if_true]
      rw [← wordFrom_eq_readWord hends]
      exact ih _
  | case5 pos c cs hc hop _ stop text rest htext ih =>
      intro pos'
      have hends := endsWord_eq_false hc hop
      have htext' : ¬ (readWord .fresh (c :: cs)).1.isEmpty = true := by
        rw [← wordFrom_eq_readWord hends]
        exact htext
      rw [lexFrom_readWord hends]
      simp only [if_neg htext']
      rw [← wordFrom_eq_readWord hends, List.map_cons, List.map_cons]
      exact congrArg _ (ih _)

/-! ## The lexer -/

def closedSubstitution (inner : List Char) : List Char :=
  '$' :: '(' :: inner ++ [')']

theorem Reading.Reads.opening {rest : List Char} :
    Reads .fresh ['$', '('] ['$', '('] (.body .opened .bare) rest := by
  have hparen : endsWord ('(' :: ([] ++ rest)) = false :=
    endsWord_eq_false_of_char (by decide) (by decide) (by decide) _
  have hopen : Reads (.text .bare true) ['('] (['('] ++ []) (.body .opened .bare) rest :=
    .cons (by simpa using fun _ => hparen) step_substitution .nil
  exact Reads.append (.dollar (by decide)) (by simpa using hopen)

/-- Behind a closed substitution the word ends at a blank. -/
theorem lexFrom_closed {pos : Position} {inner : List Char} (h : Body.Balanced inner) {blank : Char}
    (hblank : isBlank blank = true) (s : List Char) :
    lexFrom pos (closedSubstitution inner ++ blank :: s) =
      ⟨.word (String.ofList (closedSubstitution inner)), pos,
        pos.past (closedSubstitution inner)⟩ ::
        lexFrom ((pos.past (closedSubstitution inner)).advance blank) s := by
  have hclose : Body.opened.split? (inner ++ [')']) = some (inner, []) :=
    Body.split?_eq_self_iff_balanced.2 h
  have hbody : Reads (.body .opened .bare) (inner ++ [')']) (inner ++ [')']) (.text .bare false)
      (blank :: s) := .body hclose
  have hread : Reads .fresh (closedSubstitution inner) (closedSubstitution inner)
    (.text .bare false)
      (blank :: s) := Reads.opening.append hbody
  have hstop : (Reading.text .bare false).Stops (blank :: s) :=
    .inr ⟨rfl, by simp [endsWord, hblank]⟩
  rw [lexFrom_word (by simp [closedSubstitution]) hread hstop, lexFrom_blank hblank]

/-- A substitution that is not closed takes the word to the end of the text. -/
theorem lexFrom_unclosed {pos : Position} {body : List Char} (h : Body.opened.split? body = none) :
    lexFrom pos ('$' :: '(' :: body) =
      [⟨.word (String.ofList ('$' :: '(' :: body)), pos, pos.past ('$' :: '(' :: body)⟩] := by
  have hends : endsWord ('$' :: '(' :: body) = false :=
    endsWord_eq_false_of_char (by decide) (by decide) (by decide) _
  have hword : readWord .fresh ('$' :: '(' :: body) = ('$' :: '(' :: body, []) := by
    have hread := readWord_of_reads (@Reads.opening body)
    rw [readWord_body_of_none h] at hread
    exact hread
  rw [lexFrom_readWord hends]
  simp [hword, before, lexFrom_nil]

/-! ## The reader of words -/

/-- A word that begins with a closed substitution: the text of the substitution is read one level
deeper, and what follows it as a word of its own. -/
theorem parse_word_closed {inner : List Char} (h : Body.Balanced inner) (s : List Char) (w : Word) :
    Word.parse (String.ofList (closedSubstitution inner ++ s)) = .ok w ↔
      ∃ p ps, parseWithin (maxNesting - 1) inner = .ok p ∧ Word.parse (String.ofList s) = .ok ps ∧
        w = .substitution p :: ps := by
  have hsplit : substitutionBody (inner ++ ')' :: s) = (inner, s) := substitutionBody_eq_iff.2 h
  have hcs : closedSubstitution inner ++ s = '$' :: '(' :: (inner ++ ')' :: s) := by
    simp [closedSubstitution]
  rw [Word.parse, hcs, readParts_opened, hsplit, bind_eq_ok_iff]
  constructor
  · rintro ⟨p, hp, hw⟩
    cases hps : Word.parse (String.ofList s) with
    | error e =>
        rw [Word.parse] at hps
        simp [hps, Except.map] at hw
    | ok ps =>
        rw [Word.parse] at hps
        simp only [hps, Except.map, Except.ok.injEq] at hw
        exact ⟨p, ps, hp, rfl, hw.symm⟩
  · rintro ⟨p, ps, hp, hps, rfl⟩
    rw [Word.parse] at hps
    exact ⟨p, hp, by simp [hps, Except.map]⟩

/-- A substitution that is not closed is the whole word. -/
theorem parse_word_unclosed {body : List Char} (h : Body.opened.split? body = none) :
    Word.parse (String.ofList ('$' :: '(' :: body)) =
      (parseWithin (maxNesting - 1) body).map fun p => [.substitution p] := by
  have hsplit : substitutionBody body = (body, []) := by simp [substitutionBody, h]
  rw [Word.parse, readParts_opened, hsplit, readParts_nil]
  cases parseWithin (maxNesting - 1) body with
  | error e => rfl
  | ok p => rfl

/-! ## One place for both -/

/-- The lexer and the reader of words cut a substitution at the same place. If the scanner closes a
text behind `inner`, it closes every text there that goes on in another way; the lexer ends the word
`$(inner)` at a blank and goes on with what follows; and the word that begins with `$(inner)` is the
output of `inner`, followed by the parts of the rest, if both can be read. If the scanner does not
close the text, all of it belongs to the word and to the substitution. -/
theorem substitution_is_cut_alike :
    (∀ body inner rest, Body.opened.split? body = some (inner, rest) →
      body = inner ++ ')' :: rest ∧
      ∀ s : List Char,
        Body.opened.split? (inner ++ ')' :: s) = some (inner, s) ∧
        (∀ blank, isBlank blank = true →
          lex (closedSubstitution inner ++ blank :: s) =
            ⟨.word (String.ofList (closedSubstitution inner)), .start,
              Position.start.past (closedSubstitution inner)⟩ ::
              lexFrom ((Position.start.past (closedSubstitution inner)).advance blank) s ∧
          tokens (closedSubstitution inner ++ blank :: s) =
            .word (String.ofList (closedSubstitution inner)) :: tokens s) ∧
        (∀ w, Word.parse (String.ofList (closedSubstitution inner ++ s)) = .ok w ↔
          ∃ p ps, parseWithin (maxNesting - 1) inner = .ok p ∧
            Word.parse (String.ofList s) = .ok ps ∧ w = .substitution p :: ps)) ∧
    (∀ body, Body.opened.split? body = none →
      lex ('$' :: '(' :: body) =
        [⟨.word (String.ofList ('$' :: '(' :: body)), .start,
          Position.start.past ('$' :: '(' :: body)⟩] ∧
      Word.parse (String.ofList ('$' :: '(' :: body)) =
        (parseWithin (maxNesting - 1) body).map fun p => [.substitution p]) := by
  constructor
  · intro body inner rest h
    have hbody : body = inner ++ ')' :: rest := Body.eq_append_close_of_split? (by decide) h
    have hbalanced : Body.Balanced inner := by
      rw [hbody] at h
      exact Body.split?_eq_self_iff_balanced.1 h
    refine ⟨hbody, fun s => ⟨Body.split?_eq_self_iff_balanced.2 hbalanced, ?_, ?_⟩⟩
    · intro blank hblank
      have hlex := @lexFrom_closed .start inner hbalanced blank hblank s
      refine ⟨hlex, ?_⟩
      rw [tokens, lex, hlex, List.map_cons, tokens_lexFrom]
    · exact parse_word_closed hbalanced s
  · intro body h
    exact ⟨lexFrom_unclosed h, parse_word_unclosed h⟩

/-- Neither a quoted parenthesis nor that of a nested substitution is the place. -/
theorem inner_parentheses_do_not_cut :
    Body.opened.split? "echo ')' $(pwd)) x".toList = some ("echo ')' $(pwd)".toList, " x".toList) ∧
      ∀ s, tokens (closedSubstitution "echo ')' $(pwd)".toList ++ ' ' :: s) =
        .word "$(echo ')' $(pwd))" :: tokens s := by
  have hclosed : Body.opened.split? "echo ')' $(pwd)) x".toList =
      some ("echo ')' $(pwd)".toList, " x".toList) := by decide
  refine ⟨hclosed, fun s => ?_⟩
  exact (((substitution_is_cut_alike.1 _ _ _ hclosed).2 s).2.1 ' ' (by decide)).2

end LineShell
