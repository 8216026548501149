import LineShell.Proofs.Extent

/-!
# Stretches — a line, cut where the lexer stops

The lexer goes through a line in stretches: a blank, an operator, or a word, which leaves no token
if nothing but quotes was in it. Whether a text is taken as one stretch depends on what follows it,
but only a little.

* `operator?_eq_some_iff` — which operator stands at the head of a text;
* `Stretch.Fits x rest` — in front of `rest`, the lexer takes `x` in one go;
* `Cut` — a line as the stretches that the lexer makes of it. Every line has a cut (`exists_cut`),
  and the cut gives its lexemes (`lexFrom_text`) and its tokens (`tokens_text`);
* `Cut.of_append` — stretches stay what they are if those behind them are cut off;
* `Cut.append` — behind a complete line, a text that starts with a blank, `<` or `|` is cut as if it
  stood alone.
-/

namespace LineShell

open Reading

/-! ## What decides whether a word ends -/

/-- A sign that is ahead stays ahead, whatever follows. -/
theorem SignAhead.append {cs : List Char} (h : SignAhead cs) (rest : List Char) :
    SignAhead (cs ++ rest) := by
  induction cs with
  | nil => exact absurd h not_signAhead_nil
  | cons c cs ih =>
      rw [List.cons_append, signAhead_cons]
      rcases signAhead_cons.1 h with hc | ⟨hdigit, hcs⟩
      · exact .inl hc
      · exact .inr ⟨hdigit, ih hcs⟩

/-- Unless a sign is ahead in what follows, it was ahead before. -/
theorem SignAhead.of_append {cs rest : List Char} (h : SignAhead (cs ++ rest))
    (hrest : ¬ SignAhead rest) : SignAhead cs := by
  induction cs with
  | nil => exact absurd h hrest
  | cons c cs ih =>
      rw [List.cons_append] at h
      rcases signAhead_cons.1 h with hc | ⟨hdigit, hcs⟩
      · exact signAhead_cons.2 (.inl hc)
      · exact signAhead_cons.2 (.inr ⟨hdigit, ih hcs⟩)

/-- A word that ends before a text ends before every text that begins with it. -/
theorem endsWord_append {cs : List Char} (h : endsWord cs = true) (rest : List Char) :
    endsWord (cs ++ rest) = true := by
  cases cs with
  | nil => simp [endsWord, operator?, outputSign?] at h
  | cons c cs =>
      rw [List.cons_append, endsWord_cons_iff]
      rcases endsWord_cons_iff.1 h with hc | hc | hc | hsign
      · exact .inl hc
      · exact .inr (.inl hc)
      · exact .inr (.inr (.inl hc))
      · exact .inr (.inr (.inr (hsign.append rest)))

/-- Unless a sign is ahead in what follows, words end where they ended. -/
theorem endsWord_of_append {c : Char} {cs rest : List Char} (h : endsWord (c :: cs ++ rest) = true)
    (hrest : ¬ SignAhead rest) : endsWord (c :: cs) = true := by
  rw [List.cons_append] at h
  rw [endsWord_cons_iff]
  rcases endsWord_cons_iff.1 h with hc | hc | hc | hsign
  · exact .inl hc
  · exact .inr (.inl hc)
  · exact .inr (.inr (.inl hc))
  · exact .inr (.inr (.inr (SignAhead.of_append hsign hrest)))

namespace Reading.Unbroken

variable {s : Reading} {w rest more : List Char}

/-- A reading that is unbroken before more text is unbroken before less. -/
theorem of_append (h : s.Unbroken w (rest ++ more)) : s.Unbroken w rest := by
  induction w generalizing s with
  | nil => trivial
  | cons c w ih =>
      refine ⟨?_, ih h.2⟩
      have hend := h.1
      rw [Bool.and_eq_false_iff] at hend ⊢
      refine hend.imp id fun hend => ?_
      rw [← List.append_assoc] at hend
      exact Bool.eq_false_iff.2 fun hends => Bool.eq_false_iff.1 hend (endsWord_append hends more)

/-- A reading stays unbroken if no sign is ahead in what is added. -/
theorem append (h : s.Unbroken w rest) (hmore : ¬ SignAhead more) :
    s.Unbroken w (rest ++ more) := by
  induction w generalizing s with
  | nil => trivial
  | cons c w ih =>
      refine ⟨?_, ih h.2⟩
      have hend := h.1
      rw [Bool.and_eq_false_iff] at hend ⊢
      refine hend.imp id fun hend => ?_
      rw [← List.append_assoc]
      exact Bool.eq_false_iff.2 fun hends =>
        Bool.eq_false_iff.1 hend (endsWord_of_append hends hmore)

end Reading.Unbroken

/-! ## Operators -/

namespace Token

/-- Operators are written with signs only, and with digits if they name a descriptor. -/
def IsOperator : Token → Prop
  | .word _ => False
  | .descriptor digits _ => digits ≠ "" ∧ ∀ c ∈ digits.toList, c.isDigit = true
  | _ => True

/-- A `>` right behind such an operator would belong to it. -/
def mayGrow : Token → Bool
  | .output append => !append
  | .descriptor _ append => !append
  | _ => false

theorem IsOperator.render_ne_nil {token : Token} (h : token.IsOperator) :
    token.render.toList ≠ [] := by
  cases token with
  | word text => exact h.elim
  | pipe => decide
  | output append => cases append <;> decide
  | input => decide
  | descriptor digits append => simp [render, h.1]

end Token

/-- A single arrow is read only if no other one follows. -/
theorem outputSign?_eq_some_iff {cs rest : List Char} {append : Bool} :
    outputSign? cs = some (append, rest) ↔
      cs = (Token.outputSign append).toList ++ rest ∧ (append = false → rest.head? ≠ some '>') := by
  constructor
  · intro h
    unfold outputSign? at h
    split at h
    · cases h
      exact ⟨rfl, by simp⟩
    · -- A single sign is read only if it is not the first half of a double one.
      rename_i hsingle
      cases h
      refine ⟨rfl, fun _ hhead => ?_⟩
      cases rest with
      | nil => cases hhead
      | cons c rest =>
          simp only [List.head?_cons, Option.some.injEq] at hhead
          exact hsingle rest (hhead ▸ rfl)
    · cases h
  · rintro ⟨rfl, hhead⟩
    cases append with
    | true => rfl
    | false =>
        cases rest with
        | nil => rfl
        | cons c rest =>
            have hc : c ≠ '>' := by simpa using hhead rfl
            simp [Token.outputSign, outputSign?, hc]

/-- An output operator with the digits before it, if there are any. -/
theorem operator?_sign {digits rest : List Char} {append : Bool}
    (hdigits : ∀ c ∈ digits, c.isDigit = true) (hrest : append = false → rest.head? ≠ some '>') :
    operator? (digits ++ ((Token.outputSign append).toList ++ rest)) =
      some (if digits.isEmpty then .output append else .descriptor (String.ofList digits) append,
        rest) := by
  have hsign : outputSign? ((Token.outputSign append).toList ++ rest) = some (append, rest) :=
    outputSign?_eq_some_iff.2 ⟨rfl, hrest⟩
  -- The sign itself is no digit, so the digits in front of it are all that is taken.
  obtain ⟨tail, htail⟩ : ∃ tail, (Token.outputSign append).toList ++ rest = '>' :: tail := by
    cases append with
    | false => exact ⟨rest, rfl⟩
    | true => exact ⟨'>' :: rest, rfl⟩
  have hdrop : (digits ++ '>' :: tail).dropWhile Char.isDigit = '>' :: tail := by
    rw [List.dropWhile_append_of_pos hdigits, List.dropWhile_cons_of_neg (by decide)]
  have htake : (digits ++ '>' :: tail).takeWhile Char.isDigit = digits := by
    rw [List.takeWhile_append_of_pos hdigits, List.takeWhile_cons_of_neg (by decide),
      List.append_nil]
  rw [htail] at hsign ⊢
  unfold operator?
  simp only [hdrop, htake, hsign]
  split <;> rfl

/-- The operator at the head of a text is written there, and it is the longest one. -/
theorem operator?_eq_some_iff {cs rest : List Char} {token : Token} :
    operator? cs = some (token, rest) ↔
      token.IsOperator ∧ cs = token.render.toList ++ rest ∧
        (token.mayGrow = true → rest.head? ≠ some '>') := by
  constructor
  · intro h
    unfold operator? at h
    -- An arrow is read together with the digits in front of it, so the sign is looked for behind
    -- them.
    cases hsign : outputSign? (cs.dropWhile Char.isDigit) with
    | some r =>
        rcases r with ⟨append, tail⟩
        rcases outputSign?_eq_some_iff.1 hsign with ⟨hdrop, hhead⟩
        have hcs :
            cs = cs.takeWhile Char.isDigit ++ ((Token.outputSign append).toList ++ tail) := by
          rw [← hdrop, List.takeWhile_append_dropWhile]
        simp only [hsign] at h
        split at h
        · rename_i hempty
          cases h
          rw [List.isEmpty_iff.1 hempty] at hcs
          exact ⟨trivial, hcs, by simpa [Token.mayGrow] using hhead⟩
        · rename_i hdigits
          cases h
          refine ⟨⟨by simpa using hdigits, ?_⟩, ?_, by simpa [Token.mayGrow] using hhead⟩
          · rw [String.toList_ofList]
            exact List.all_eq_true.1 List.all_takeWhile
          · simpa [Token.render] using hcs
    | none =>
        simp only [hsign] at h
        split at h
        · cases h
          exact ⟨trivial, rfl, by simp [Token.mayGrow]⟩
        · cases h
          exact ⟨trivial, rfl, by simp [Token.mayGrow]⟩
        · cases h
  · rintro ⟨hop, rfl, hgrow⟩
    cases token with
    | word text => exact hop.elim
    | pipe => simp [Token.render, operator?, outputSign?]
    | input => simp [Token.render, operator?, outputSign?]
    | output append =>
        have hsign :=
          @operator?_sign [] rest append (by simp) (by simpa [Token.mayGrow] using hgrow)
        simpa [Token.render] using hsign
    | descriptor digits append =>
        have hsign := operator?_sign hop.2 (by simpa [Token.mayGrow] using hgrow)
        have hne : digits.toList ≠ [] := by simpa using hop.1
        simpa [Token.render, hne] using hsign

/-! ## Stretches -/

/-- Characters that the lexer takes in one go, and the token that they leave, if any. -/
structure Stretch where
  chars : List Char
  token? : Option Token

namespace Stretch

/-- A word leaves a token unless nothing was in its quotes. -/
def ofWord (v out : List Char) : Stretch :=
  ⟨v, if out.isEmpty then none else some (.word (String.ofList out))⟩

/-- In front of `rest`, the lexer takes the stretch in one go. -/
inductive Fits : Stretch → List Char → Prop
  | blank {c : Char} {rest : List Char} (h : isBlank c = true) : Fits ⟨[c], none⟩ rest
  | operator {token : Token} {rest : List Char} (hop : token.IsOperator)
      (hgrow : token.mayGrow = true → rest.head? ≠ some '>') :
      Fits ⟨token.render.toList, some token⟩ rest
  | word {v out rest : List Char} {s : Reading} (hv : v ≠ []) (h : Reads .fresh v out s rest)
      (hstop : s.Stops rest) : Fits (ofWord v out) rest

end Stretch

def text (xs : List Stretch) : List Char :=
  xs.flatMap Stretch.chars

@[simp] theorem text_nil : text [] = [] := rfl

@[simp] theorem text_cons (x : Stretch) (xs : List Stretch) : text (x :: xs) = x.chars ++ text xs :=
  rfl

@[simp] theorem text_append (xs ys : List Stretch) : text (xs ++ ys) = text xs ++ text ys := by
  simp [text]

/-- Each stretch is what the lexer takes in front of those behind it. -/
def Cut : List Stretch → Prop
  | [] => True
  | x :: xs => x.Fits (text xs) ∧ Cut xs

namespace Stretch.Fits

variable {x : Stretch} {rest : List Char}

theorem chars_ne_nil (h : x.Fits rest) : x.chars ≠ [] := by
  cases h with
  | blank h => simp
  | operator hop hgrow => exact hop.render_ne_nil
  | word hv h hstop => exact hv

/-- At every place of a line the lexer takes some stretch. -/
theorem exists_of_cons (c : Char) (cs : List Char) :
    ∃ x rest, c :: cs = Stretch.chars x ++ rest ∧ x.Fits rest := by
  by_cases hblank : isBlank c = true
  · exact ⟨⟨[c], none⟩, cs, rfl, .blank hblank⟩
  cases hop : operator? (c :: cs) with
  | some r =>
      rcases r with ⟨token, rest⟩
      rcases operator?_eq_some_iff.1 hop with ⟨hop, hcs, hgrow⟩
      exact ⟨⟨token.render.toList, some token⟩, rest, hcs, .operator hop hgrow⟩
  | none =>
      rcases exists_reads_wordFrom (endsWord_eq_false hblank hop) with ⟨v, s, hv, hread, hstop⟩
      refine ⟨ofWord v (wordFrom c cs).1, (wordFrom c cs).2, hv, .word ?_ hread hstop⟩
      rintro rfl
      have hlength := congrArg List.length hv
      have hle := length_wordFrom_le c cs
      simp only [List.length_cons, List.nil_append] at hlength
      omega

end Stretch.Fits

/-- Every line can be cut. -/
theorem exists_cut (cs : List Char) : ∃ xs, Cut xs ∧ text xs = cs := by
  -- By induction on the length: behind the first stretch the line is shorter.
  induction hlength : cs.length using Nat.strongRecOn generalizing cs with
  | ind n ih =>
      cases cs with
      | nil => exact ⟨[], trivial, rfl⟩
      | cons c cs =>
          rcases Stretch.Fits.exists_of_cons c cs with ⟨x, rest, hcs, hx⟩
          have hpos := List.length_pos_iff.2 hx.chars_ne_nil
          have hshort : rest.length < n := by
            rw [← hlength, hcs, List.length_append]
            omega
          rcases ih _ hshort rest rfl with ⟨xs, hcut, rfl⟩
          exact ⟨x :: xs, ⟨hx, hcut⟩, hcs.symm⟩

/-! ## Lexemes and tokens of a cut -/

/-- The lexemes of stretches that follow one another from the given place on. -/
def locate (pos : Position) : List Stretch → List Lexeme
  | [] => []
  | x :: xs =>
      (x.token?.map fun token => ⟨token, pos, pos.past x.chars⟩).toList ++
        locate (pos.past x.chars) xs

/-- A stretch that fits gives its token, if it has one, and then the rest is read. -/
theorem Stretch.Fits.lexFrom_eq {x : Stretch} {rest : List Char} (h : x.Fits rest)
    (pos : Position) :
    lexFrom pos (x.chars ++ rest) =
      (x.token?.map fun token => ⟨token, pos, pos.past x.chars⟩).toList ++
        lexFrom (pos.past x.chars) rest := by
  cases h with
  | blank h => exact lexFrom_blank h
  | operator hop hgrow => exact lexFrom_operator (operator?_eq_some_iff.2 ⟨hop, rfl, hgrow⟩)
  | word hv h hstop =>
      simp only [ofWord]
      rw [lexFrom_of_reads hv h hstop]
      split <;> rfl

/-- A text that is cut into stretches gives their tokens, each at its place. -/
theorem lexFrom_text {xs : List Stretch} (h : Cut xs) (pos : Position) :
    lexFrom pos (text xs) = locate pos xs := by
  induction xs generalizing pos with
  | nil => exact lexFrom_nil pos
  | cons x xs ih =>
      rw [text_cons, h.1.lexFrom_eq, ih h.2]
      rfl

/-- Locating stretches keeps their tokens. -/
theorem map_token_locate (pos : Position) (xs : List Stretch) :
    (locate pos xs).map Lexeme.token = xs.filterMap Stretch.token? := by
  induction xs generalizing pos with
  | nil => rfl
  | cons x xs ih =>
      rw [locate, List.map_append, ih, List.filterMap_cons]
      cases x.token? <;> rfl

/-- The tokens of a text are those of its stretches. -/
theorem tokens_text {xs : List Stretch} (h : Cut xs) :
    tokens (text xs) = xs.filterMap Stretch.token? := by
  rw [tokens, lex, lexFrom_text h, map_token_locate]

/-! ## What follows a stretch -/

namespace Stretch.Fits

variable {x : Stretch} {rest more : List Char}

/-- Whether a word ends before a stretch can be told from the stretch alone. -/
theorem endsWord_eq (h : x.Fits rest) : endsWord (x.chars ++ rest) = endsWord x.chars := by
  cases h with
  | blank h => simp [endsWord, h]
  | @operator token rest hop hgrow =>
      have hhead : operator? (token.render.toList ++ rest) = some (token, rest) :=
        operator?_eq_some_iff.2 ⟨hop, rfl, hgrow⟩
      have halone : operator? token.render.toList = some (token, []) :=
        operator?_eq_some_iff.2 ⟨hop, by simp, by simp⟩
      simp [endsWord, hhead, halone]
  | @word v out rest s hv h hstop =>
      cases v with
      | nil => exact absurd rfl hv
      | cons c v =>
          have hread : endsWord (c :: v ++ rest) = false := by
            simpa [fresh, mayEnd] using h.unbroken.1
          have halone : endsWord (c :: v) = false :=
            Bool.eq_false_iff.2 fun hends =>
              Bool.eq_false_iff.1 hread (endsWord_append hends rest)
          exact hread.trans halone.symm

/-- Where the text behind a stretch is cut off, the stretch stays, as long as what is left there
still ends a word. -/
theorem of_append (h : x.Fits (rest ++ more))
    (hrest : rest = [] ∨ (endsWord (rest ++ more) = true → endsWord rest = true)) :
    x.Fits rest := by
  cases h with
  | blank h => exact .blank h
  | operator hop hgrow =>
      refine .operator hop fun hgrows hhead => hgrow hgrows ?_
      rw [List.head?_append, hhead]
      rfl
  | word hv h hstop =>
      refine .word hv ⟨h.unbroken.of_append, h.run_eq⟩ ?_
      rcases hrest with hrest | hrest
      · exact .inl hrest
      rcases hstop with hnil | ⟨hmay, hends⟩
      · exact .inl (List.append_eq_nil_iff.1 hnil).1
      · exact .inr ⟨hmay, hrest hends⟩

/-- More text behind a stretch changes nothing, unless a word ran to the end of the line or an
output operator is still to come. -/
theorem append (h : x.Fits rest) (hmore : ¬ SignAhead more)
    (hend : rest = [] → CompleteLine x.chars ∧ endsWord more = true) : x.Fits (rest ++ more) := by
  cases h with
  | blank h => exact .blank h
  | operator hop hgrow =>
      refine .operator hop fun hgrows hhead => ?_
      cases rest with
      | nil =>
          cases more with
          | nil => cases hhead
          | cons c more =>
              have hc : c = '>' := by simpa using hhead
              exact hmore (signAhead_cons.2 (.inl hc))
      | cons c rest => exact hgrow hgrows hhead
  | @word v out rest s hv h hstop =>
      refine .word hv ⟨h.unbroken.append hmore, h.run_eq⟩ (.inr ?_)
      cases rest with
      | nil =>
          rcases hend rfl with ⟨hline, hends⟩
          have hmay : (Reading.fresh.run v).1.mayEnd = true := hline
          rw [h.run_eq] at hmay
          exact ⟨hmay, hends⟩
      | cons c rest =>
          rcases hstop with hnil | ⟨hmay, hends⟩
          · cases hnil
          · exact ⟨hmay, endsWord_append hends more⟩

end Stretch.Fits

/-- Stretches stay what they are if those behind them are cut off. -/
theorem Cut.of_append {xs ys : List Stretch} (h : Cut (xs ++ ys)) : Cut xs := by
  induction xs with
  | nil => trivial
  | cons x xs ih =>
      have htail := ih h.2
      have hx : x.Fits (text (xs ++ ys)) := h.1
      rw [text_append] at hx
      refine ⟨hx.of_append ?_, htail⟩
      cases xs with
      | nil => exact .inl rfl
      | cons y xs =>
          -- A word ends before `y` whatever stands behind it.
          refine .inr fun hends => ?_
          have hy : y.Fits (text (xs ++ ys)) := h.2.1
          have hlong := hy.endsWord_eq
          rw [text_append, ← List.append_assoc] at hlong
          exact htail.1.endsWord_eq.trans (hlong.symm.trans hends)

theorem Cut.right {xs ys : List Stretch} (h : Cut (xs ++ ys)) : Cut ys := by
  induction xs with
  | nil => exact h
  | cons x xs ih => exact ih h.2

/-- The lexer makes of a stretch alone what it makes of it in its line. -/
theorem tokens_chars {xs ys : List Stretch} {x : Stretch} (h : Cut (xs ++ x :: ys)) :
    tokens x.chars = x.token?.toList := by
  have hright : Cut ([x] ++ ys) := h.right
  have halone : Cut [x] := hright.of_append
  have htokens := tokens_text halone
  simp only [text_cons, text_nil, List.append_nil] at htokens
  rw [htokens, List.filterMap_cons]
  cases x.token? <;> rfl

/-! ## The word automaton along a cut -/

namespace Reading

/-- The characters of operators, like blanks, leave the automaton where it is. -/
theorem run_inert {v : List Char} (h : ∀ c ∈ v, Inert .bare c) : (fresh.run v).1 = fresh := by
  induction v with
  | nil => rfl
  | cons c v ih =>
      rcases List.forall_mem_cons.1 h with ⟨hc, hv⟩
      have hstep : fresh.step c = (fresh, [c]) := step_inert hc (by simp)
      rw [run_cons, hstep]
      exact ih hv

/-- Digits do nothing inside a word. -/
theorem inert_of_isDigit {c : Char} (h : c.isDigit = true) (q : Quote) : Inert q c := by
  have hmarks : c ≠ '\\' ∧ c ≠ '\'' ∧ c ≠ '"' ∧ c ≠ '$' := by
    refine ⟨?_, ?_, ?_, ?_⟩ <;> rintro rfl <;> exact absurd h (by decide)
  refine ⟨fun hc => absurd hc hmarks.1, ?_, hmarks.2.2.2⟩
  cases q <;> simp [Quote.toggle, hmarks]

theorem inert_of_isBlank {c : Char} (h : isBlank c = true) : Inert .bare c := by
  simp only [isBlank, Bool.or_eq_true, beq_iff_eq] at h
  rcases h with rfl | rfl <;> exact ⟨by decide, by decide, by decide⟩

/-- Operators between quotes do nothing. -/
theorem inert_of_isOperator {token : Token} (h : token.IsOperator) {c : Char}
    (hc : c ∈ token.render.toList) : Inert .bare c := by
  have hsign (append : Bool) (hc : c ∈ (Token.outputSign append).toList) : Inert .bare c := by
    have hc : c = '>' := by cases append <;> simpa [Token.outputSign] using hc
    subst hc
    exact ⟨by decide, by decide, by decide⟩
  cases token with
  | word text => exact h.elim
  | pipe =>
      obtain rfl : c = '|' := by simpa [Token.render] using hc
      exact ⟨by decide, by decide, by decide⟩
  | input =>
      obtain rfl : c = '<' := by simpa [Token.render] using hc
      exact ⟨by decide, by decide, by decide⟩
  | output append => exact hsign append hc
  | descriptor digits append =>
      simp only [Token.render, String.toList_append, List.mem_append] at hc
      rcases hc with hc | hc
      · exact inert_of_isDigit (h.2 c hc) .bare
      · exact hsign append hc

/-- Outside quotes, the automaton remembers nothing but a dollar sign, and forgets that before
everything but a parenthesis. -/
theorem step_of_mayEnd {s : Reading} (h : s.mayEnd = true) {c : Char} (hc : c ≠ '(') :
    s.step c = fresh.step c := by
  cases s with
  | text q dollar =>
      cases q with
      | bare => simp [fresh, step, hc]
      | single => cases h
      | double => cases h
  | escape q => cases h
  | body inner outer => cases h

end Reading

/-- Behind a stretch the automaton goes on as if the line began there. -/
theorem Stretch.Fits.run_through {x : Stretch} {rest t : List Char} (h : x.Fits rest) (ht : t ≠ [])
    (hpre : t <+: rest) : (fresh.run (x.chars ++ t)).1 = (fresh.run t).1 := by
  rw [run_append]
  -- A blank or an operator leaves the reading as it is, and a word ends where the next stretch
  -- begins.
  cases h with
  | blank h =>
      have hrun : (fresh.run [_]).1 = fresh := run_inert fun c hc => by
        rw [List.mem_singleton.1 hc]
        exact inert_of_isBlank h
      rw [hrun]
  | operator hop hgrow =>
      have hrun : (fresh.run _).1 = fresh := run_inert fun c hc => inert_of_isOperator hop hc
      rw [hrun]
  | word hv h hstop =>
      cases t with
      | nil => exact absurd rfl ht
      | cons c t =>
          rcases hpre with ⟨tail, rfl⟩
          rcases hstop with hnil | ⟨hmay, hends⟩
          · cases hnil
          have hc : c ≠ '(' := by
            rintro rfl
            rw [List.cons_append, endsWord_cons_iff, signAhead_cons] at hends
            simp [isBlank] at hends
          simp only [ofWord, h.run_eq, run_cons, step_of_mayEnd hmay hc]

/-- Whether a line is complete shows behind its stretches. -/
theorem Stretch.Fits.completeLine_iff {x : Stretch} {rest : List Char} (h : x.Fits rest)
    (hrest : rest ≠ []) : CompleteLine (x.chars ++ rest) ↔ CompleteLine rest := by
  rw [CompleteLine, CompleteLine, h.run_through hrest (List.prefix_refl rest)]

/-- Behind a complete line, a text before which a word ends is cut as if it stood alone, unless it
starts with an output operator, which could take digits or a sign from the line. -/
theorem Cut.append {xs ys : List Stretch} (hx : Cut xs) (hline : CompleteLine (text xs))
    (hy : Cut ys) (hends : endsWord (text ys) = true) (hsign : ¬ SignAhead (text ys)) :
    Cut (xs ++ ys) := by
  induction xs with
  | nil => exact hy
  | cons x xs ih =>
      have hrest : CompleteLine (text xs) := by
        by_cases hnil : text xs = []
        · rw [hnil]
          decide
        · exact (hx.1.completeLine_iff hnil).1 hline
      refine ⟨?_, ih hx.2 hrest⟩
      have hfits : x.Fits (text xs ++ text ys) := hx.1.append hsign fun hnil => by
        rw [text_cons, hnil, List.append_nil] at hline
        exact ⟨hline, hends⟩
      rw [← text_append] at hfits
      exact hfits

end LineShell
