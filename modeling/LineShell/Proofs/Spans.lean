import LineShell.Proofs.Guarding
import LineShell.Proofs.Stretches

/-!
# Spans — where the tokens of a line stand

Every lexeme names the places before its first and behind its last character. This file says that
these places are right: the text between them is what the lexer made the token of, and nothing else
of the line was of any use to it.

* `Lexeme.Located` — the places of a lexeme, the text between them, and what the lexer makes of that
  text alone;
* `Void`, `dangling` — what may stand between tokens, and what a line may end with besides;
* `gaps` — the texts of a line that belong to no lexeme;
* `spans_locate_tokens` — all lexemes of a line are located, one behind the other, and the gaps
  between them hold blanks and empty quotes.
-/

namespace LineShell

open Reading

/-! ## Places -/

/-- The text of a line between two places. -/
def between (line : List Char) (p q : Position) : List Char :=
  (line.drop (p.column - 1)).take (q.column - p.column)

/-- The column of a place counts the characters and its offset the bytes of one prefix of the
line. -/
def Position.IsPlaceOf (p : Position) (line : List Char) : Prop :=
  ∃ pre, pre <+: line ∧ p.column = 1 + pre.length ∧ p.offset = (String.ofList pre).utf8ByteSize

namespace Position

/-- The offset counts the bytes that were passed. -/
theorem past_offset (p : Position) (cs : List Char) :
    (p.past cs).offset = p.offset + (String.ofList cs).utf8ByteSize := by
  induction cs generalizing p with
  | nil => rfl
  | cons c cs ih =>
      rw [past_cons, ih]
      simp only [advance, String.ofList_cons, String.utf8ByteSize_append,
        String.utf8ByteSize_singleton]
      omega

/-- The position behind the front of a line is a place of the line. -/
theorem isPlaceOf_past {pre line : List Char} (h : pre <+: line) :
    (start.past pre).IsPlaceOf line :=
  ⟨pre, h, past_column start pre, by rw [past_offset]; simp [start]⟩

end Position

/-- Between two positions stands what was passed from one to the other. -/
theorem between_past {line a b c : List Char} (h : line = a ++ (b ++ c)) :
    between line (Position.start.past a) (Position.start.past (a ++ b)) = b := by
  subst h
  simp only [between, Position.past_column, Position.start, List.length_append]
  have hdrop : 1 + a.length - 1 = a.length := by omega
  have htake : 1 + (a.length + b.length) - (1 + a.length) = b.length := by omega
  rw [hdrop, htake, List.drop_left, List.take_left]

/-! ## Lexemes of a cut -/

/-- The lexeme comes from a stretch of the line. -/
theorem exists_stretch_of_mem_locate {pos : Position} {xs : List Stretch} {lexeme : Lexeme}
    (h : lexeme ∈ locate pos xs) :
    ∃ front x back, xs = front ++ x :: back ∧ x.token? = some lexeme.token ∧
      lexeme.start = pos.past (text front) ∧ lexeme.stop = pos.past (text front ++ x.chars) := by
  induction xs generalizing pos with
  | nil => cases h
  | cons y xs ih =>
      rw [locate, List.mem_append] at h
      rcases h with h | h
      · rcases Option.map_eq_some_iff.1 (Option.mem_toList.1 h) with ⟨token, htoken, rfl⟩
        exact ⟨[], y, xs, rfl, htoken, rfl, rfl⟩
      · rcases ih h with ⟨front, x, back, rfl, htoken, hstart, hstop⟩
        refine ⟨y :: front, x, back, rfl, htoken, ?_, ?_⟩
        · rw [hstart, text_cons, Position.past_append]
        · rw [hstop, text_cons, List.append_assoc, Position.past_append pos y.chars]

/-- The second place is not before the first, in characters and in bytes. -/
def Position.NotBehind (p q : Position) : Prop :=
  p.column ≤ q.column ∧ p.offset ≤ q.offset

theorem Position.notBehind_past (p : Position) (cs : List Char) : p.NotBehind (p.past cs) := by
  rw [NotBehind, past_column, past_offset]
  omega

/-- Lexemes follow one another without overlapping. -/
theorem pairwise_locate (pos : Position) (xs : List Stretch) :
    (locate pos xs).Pairwise fun x y => x.stop.NotBehind y.start := by
  induction xs generalizing pos with
  | nil => exact .nil
  | cons x xs ih =>
      rw [locate, List.pairwise_append]
      refine ⟨?_, ih _, ?_⟩
      · cases x.token? with
        | none => exact .nil
        | some token => exact List.pairwise_singleton _ _
      · -- Whatever comes behind `x` starts at the stop of `x` or later.
        intro lexeme hlexeme later hlater
        rcases Option.map_eq_some_iff.1 (Option.mem_toList.1 hlexeme) with ⟨token, -, rfl⟩
        rcases exists_stretch_of_mem_locate hlater with ⟨front, y, back, -, -, hstart, -⟩
        rw [hstart]
        exact Position.notBehind_past _ _

/-! ## What leaves no token -/

/-- Blanks and quotes with nothing in them. -/
inductive Void : List Char → Prop
  | nil : Void []
  | blank {c : Char} {cs : List Char} (h : isBlank c = true) (hcs : Void cs) : Void (c :: cs)
  | single {cs : List Char} (hcs : Void cs) : Void ('\'' :: '\'' :: cs)
  | double {cs : List Char} (hcs : Void cs) : Void ('"' :: '"' :: cs)

/-- What a line may end with and still leave no token: a quote that is never closed, and a backslash
that stands before nothing. -/
def dangling : List (List Char) :=
  [[], ['\''], ['"'], ['\\'], ['"', '\\']]

/-- Texts that say nothing say nothing in turn. -/
theorem Void.append {as bs : List Char} (ha : Void as) (hb : Void bs) : Void (as ++ bs) := by
  induction ha with
  | nil => exact hb
  | blank h _ ih => exact .blank h ih
  | single _ ih => exact .single ih
  | double _ ih => exact .double ih

namespace Reading

/-- A reading that gives out nothing gives out nothing at each step. -/
theorem run_cons_silent {s : Reading} {c : Char} {v : List Char} (h : (s.run (c :: v)).2 = []) :
    (s.step c).2 = [] ∧ ((s.step c).1.run v).2 = [] := by
  rw [run_cons] at h
  exact List.append_eq_nil_iff.1 h

/-- Outside quotes only a backslash and quotes add nothing to a word. -/
theorem step_fresh_silent {c : Char} (h : (fresh.step c).2 = []) :
    (c = '\\' ∧ (fresh.step c).1 = .escape .bare) ∨
      (c = '\'' ∧ (fresh.step c).1 = .text .single false) ∨
      (c = '"' ∧ (fresh.step c).1 = .text .double false) := by
  by_cases hslash : c = '\\'
  · exact .inl ⟨hslash, by rw [hslash]; rfl⟩
  by_cases hsingle : c = '\''
  · exact .inr (.inl ⟨hsingle, by rw [hsingle]; rfl⟩)
  by_cases hdouble : c = '"'
  · exact .inr (.inr ⟨hdouble, by rw [hdouble]; rfl⟩)
  by_cases hdollar : c = '$'
  · rw [hdollar] at h
    exact absurd h (by decide)
  · rw [fresh, step_inert ⟨by simp [hslash], by simp [Quote.toggle, hsingle, hdouble], hdollar⟩
      (by simp)] at h
    cases h

/-- Between single quotes, only the closing quote gives out nothing. -/
theorem step_single_silent {c : Char} (h : ((Reading.text .single false).step c).2 = []) :
    c = '\'' ∧ ((Reading.text .single false).step c).1 = fresh := by
  by_cases hsingle : c = '\''
  · exact ⟨hsingle, by rw [hsingle]; rfl⟩
  by_cases hdollar : c = '$'
  · rw [hdollar] at h
    exact absurd h (by decide)
  · rw [step_inert ⟨fun _ => rfl, by simp [Quote.toggle, hsingle], hdollar⟩ (by simp)] at h
    cases h

/-- Between double quotes, only the closing quote and a backslash give out nothing. -/
theorem step_double_silent {c : Char} (h : ((Reading.text .double false).step c).2 = []) :
    (c = '"' ∧ ((Reading.text .double false).step c).1 = fresh) ∨
      (c = '\\' ∧ ((Reading.text .double false).step c).1 = .escape .double) := by
  by_cases hdouble : c = '"'
  · exact .inl ⟨hdouble, by rw [hdouble]; rfl⟩
  by_cases hslash : c = '\\'
  · exact .inr ⟨hslash, by rw [hslash]; rfl⟩
  by_cases hdollar : c = '$'
  · rw [hdollar] at h
    exact absurd h (by decide)
  · rw [step_inert ⟨by simp [hslash], by simp [Quote.toggle, hdouble], hdollar⟩ (by simp)] at h
    cases h

/-- Behind a backslash every character is given out. -/
theorem eq_nil_of_run_escape_silent {q : Quote} {v : List Char}
    (h : ((Reading.escape q).run v).2 = []) : v = [] := by
  cases v with
  | nil => rfl
  | cons c v =>
      have hc := (run_cons_silent h).1
      simp only [step] at hc
      split at hc <;> cases hc

end Reading

/-- A word of which nothing is left is made of empty quotes, unless the line ends inside it. -/
theorem void_of_run {v : List Char} (h : (fresh.run v).2 = []) :
    ∃ u e, v = u ++ e ∧ Void u ∧ e ∈ dangling ∧ ((fresh.run v).1.mayEnd = true → e = []) := by
  induction hlength : v.length using Nat.strongRecOn generalizing v with
  | ind n ih =>
  cases v with
  | nil => exact ⟨[], [], rfl, .nil, by decide, fun _ => rfl⟩
  | cons c v =>
  rcases run_cons_silent h with ⟨hc, hv⟩
  -- Behind an opening quote there is its closing one, or the line ends.
  rcases step_fresh_silent hc with ⟨rfl, hnext⟩ | ⟨rfl, hnext⟩ | ⟨rfl, hnext⟩
  · rw [hnext] at hv
    obtain rfl := eq_nil_of_run_escape_silent hv
    exact ⟨[], ['\\'], rfl, .nil, by decide, by decide⟩
  · rw [hnext] at hv
    cases v with
    | nil => exact ⟨[], ['\''], rfl, .nil, by decide, by decide⟩
    | cons d v =>
        rcases run_cons_silent hv with ⟨hd, hv⟩
        rcases step_single_silent hd with ⟨rfl, hback⟩
        rw [hback] at hv
        rcases ih v.length (by simp only [← hlength, List.length_cons]; omega) hv rfl
          with ⟨u, e, rfl, hu, he, hend⟩
        refine ⟨_ :: _ :: u, e, rfl, .single hu, he, ?_⟩
        rwa [run_cons, run_cons, hnext, hback]
  · rw [hnext] at hv
    cases v with
    | nil => exact ⟨[], ['"'], rfl, .nil, by decide, by decide⟩
    | cons d v =>
        rcases run_cons_silent hv with ⟨hd, hv⟩
        rcases step_double_silent hd with ⟨rfl, hback⟩ | ⟨rfl, hback⟩
        · rw [hback] at hv
          rcases ih v.length (by simp only [← hlength, List.length_cons]; omega) hv rfl
            with ⟨u, e, rfl, hu, he, hend⟩
          refine ⟨_ :: _ :: u, e, rfl, .double hu, he, ?_⟩
          rwa [run_cons, run_cons, hnext, hback]
        · rw [hback] at hv
          obtain rfl := eq_nil_of_run_escape_silent hv
          exact ⟨[], ['"', '\\'], rfl, .nil, by decide, by decide⟩

/-! ## Gaps -/

/-- The texts that belong to no lexeme, from a place on: before the first, between each two, and
behind the last. -/
def gapsFrom (line : List Char) (p : Position) : List Lexeme → List (List Char)
  | [] => [between line p (Position.start.past line)]
  | x :: xs => between line p x.start :: gapsFrom line x.stop xs

/-- The texts of a line that belong to no lexeme. -/
def gaps (line : List Char) : List (List Char) :=
  gapsFrom line .start (lex line)

/-- A stretch without a token is void, unless the line ends with it. -/
theorem Stretch.Fits.void {x : Stretch} {rest : List Char} (h : x.Fits rest)
    (htoken : x.token? = none) :
    ∃ u e, x.chars = u ++ e ∧ Void u ∧ e ∈ dangling ∧ (rest ≠ [] → e = []) := by
  cases h with
  | blank h => exact ⟨[_], [], rfl, .blank h .nil, by decide, fun _ => rfl⟩
  | operator hop hgrow => cases htoken
  | @word v out rest s hv h hstop =>
      obtain rfl : out = [] := by simpa [ofWord] using htoken
      rcases void_of_run (by rw [h.run_eq]) with ⟨u, e, hue, hu, he, hend⟩
      refine ⟨u, e, hue, hu, he, fun hrest => hend ?_⟩
      rw [h.run_eq]
      exact (hstop.resolve_left hrest).1

/-- Stretches without a token are void but for the last of them. -/
theorem Cut.void {xs : List Stretch} (h : Cut xs) (htokens : ∀ x ∈ xs, x.token? = none) :
    ∃ u e, text xs = u ++ e ∧ Void u ∧ e ∈ dangling := by
  induction xs with
  | nil => exact ⟨[], [], rfl, .nil, by decide⟩
  | cons x xs ih =>
      rcases List.forall_mem_cons.1 htokens with ⟨hx, hxs⟩
      rcases ih h.2 hxs with ⟨u, e, hue, hu, he⟩
      rcases h.1.void hx with ⟨v, f, hvf, hv, hf, hend⟩
      by_cases hrest : text xs = []
      · exact ⟨v, f, by simp [hrest, hvf], hv, hf⟩
      · refine ⟨v ++ u, e, ?_, hv.append hu, he⟩
        rw [text_cons, hvf, hend hrest, hue]
        simp

/-- Stretches without a token say nothing, if something follows them. -/
theorem Cut.void_before {xs ys : List Stretch} (h : Cut (xs ++ ys))
    (htokens : ∀ x ∈ xs, x.token? = none) (hys : text ys ≠ []) : Void (text xs) := by
  induction xs with
  | nil => exact .nil
  | cons x xs ih =>
      rcases List.forall_mem_cons.1 htokens with ⟨hx, hxs⟩
      rcases h.1.void hx with ⟨v, f, hvf, hv, hf, hend⟩
      have hrest : text (xs ++ ys) ≠ [] := by simp [hys]
      rw [text_cons, hvf, hend hrest, List.append_nil]
      exact hv.append (ih h.2 hxs)

/-- Stretches without a token have no tokens as a text either. -/
theorem Cut.tokens_eq_nil {xs ys : List Stretch} (h : Cut (xs ++ ys))
    (htokens : ∀ x ∈ xs, x.token? = none) : tokens (text xs) = [] := by
  rw [tokens_text h.of_append]
  exact List.filterMap_eq_nil_iff.2 htokens

/-- Between two lexemes of a cut there are stretches without a token. Here `skipped` are those that
were passed since the last lexeme. -/
theorem gapsFrom_locate {line : List Char} {front skipped xs : List Stretch}
    (hline : line = text front ++ (text skipped ++ text xs)) (hcut : Cut (skipped ++ xs))
    (hskipped : ∀ x ∈ skipped, x.token? = none) :
    ∃ inner u e, gapsFrom line (Position.start.past (text front))
        (locate (Position.start.past (text front ++ text skipped)) xs) = inner ++ [u ++ e] ∧
      (∀ gap ∈ inner, tokens gap = [] ∧ Void gap) ∧ tokens (u ++ e) = [] ∧ Void u ∧
      e ∈ dangling := by
  have hgap : between line (Position.start.past (text front))
      (Position.start.past (text front ++ text skipped)) = text skipped := between_past hline
  induction xs generalizing front skipped with
  | nil =>
      rcases hcut.of_append.void hskipped with ⟨u, e, hue, hu, he⟩
      have hwhole : line = text front ++ text skipped := by simpa using hline
      rw [← hwhole] at hgap
      refine ⟨[], u, e, ?_, by simp, ?_, hu, he⟩
      · rw [locate, gapsFrom, hgap, hue]
        rfl
      · rw [← hue]
        exact hcut.tokens_eq_nil hskipped
  | cons x xs ih =>
      cases htoken : x.token? with
      | none =>
          -- One more stretch is passed over.
          have hpassed : ∀ y ∈ skipped ++ [x], y.token? = none := by
            simpa [or_imp, forall_and, htoken] using hskipped
          have hline' : line = text front ++ (text (skipped ++ [x]) ++ text xs) := by
            simpa using hline
          have hrest := ih hline' (by simpa using hcut) hpassed (between_past hline')
          simpa [locate, htoken, Position.past_append] using hrest
      | some token =>
          -- Here a gap ends, and the next one begins behind the lexeme.
          have hvoid : Void (text skipped) :=
            hcut.void_before hskipped (by simp [hcut.right.1.chars_ne_nil])
          have hline' : line = text (front ++ skipped ++ [x]) ++ (text [] ++ text xs) := by
            simpa using hline
          rcases ih hline' hcut.right.2 (by simp) (between_past hline') with
            ⟨inner, u, e, hgaps, hinner, hlast⟩
          refine ⟨text skipped :: inner, u, e, ?_, ?_, hlast⟩
          · have hstop : Position.start.past (text (front ++ skipped ++ [x])) =
                (Position.start.past (text front ++ text skipped)).past x.chars := by
              simp [Position.past_append]
            rw [text_nil, List.append_nil, hstop] at hgaps
            simp [locate, htoken, gapsFrom, hgap, hgaps]
          · exact List.forall_mem_cons.2 ⟨⟨hcut.tokens_eq_nil hskipped, hvoid⟩, hinner⟩

/-! ## Digits before an operator -/

namespace Reading

/-- Inside a substitution some parenthesis is open. -/
def IsOpen : Reading → Prop
  | .body inner _ => inner.depth ≠ 0
  | _ => True

/-- No step leaves a reading in a body that has closed. -/
theorem isOpen_step (s : Reading) (c : Char) : (s.step c).1.IsOpen := by
  unfold step
  grind [IsOpen, Body.opened]

theorem isOpen_run {s : Reading} (hs : s.IsOpen) (cs : List Char) : (s.run cs).1.IsOpen := by
  induction cs generalizing s with
  | nil => exact hs
  | cons c cs ih => exact ih (isOpen_step s c)

/-- A digit takes the lexer out of everything only behind a backslash. -/
theorem eq_escape_of_step_digit {s : Reading} (hs : s.IsOpen) {c : Char} (hc : c.isDigit = true)
    (hbefore : s.mayEnd = false) (hafter : (s.step c).1.mayEnd = true) : s = .escape .bare := by
  -- A digit neither opens nor closes anything, so only the end of an escape lets a word end behind
  -- it.
  have hparen : c ≠ '(' ∧ c ≠ ')' := by
    constructor <;> rintro rfl <;> exact absurd hc (by decide)
  cases s with
  | text q dollar =>
      rw [step_inert (inert_of_isDigit hc q) fun _ => hparen.1] at hafter
      cases q with
      | bare => cases hbefore
      | single => cases hafter
      | double => cases hafter
  | escape q =>
      have hstep : ((Reading.escape q).step c).1 = .text q false := by
        simp only [step]
        split <;> rfl
      rw [hstep] at hafter
      cases q with
      | bare => rfl
      | single => cases hafter
      | double => cases hafter
  | body inner outer =>
      have hopen : (inner.step c).depth ≠ 0 := fun h =>
        hparen.2 (Body.step_depth_eq_zero hs h).1
      rw [step_body_of_open hopen] at hafter
      cases hafter

end Reading

/-- No operator ends with a digit. -/
theorem Token.IsOperator.last_not_digit {token : Token} (h : token.IsOperator) {v : List Char}
    {c : Char} (hc : token.render.toList = v ++ [c]) : c.isDigit = false := by
  have hlast : token.render.toList.getLast? = some c := by rw [hc, List.getLast?_concat]
  have hsign : c = '|' ∨ c = '<' ∨ c = '>' := by
    cases token with
    | word text => exact h.elim
    | pipe => exact .inl (Option.some.inj hlast).symm
    | input => exact .inr (.inl (Option.some.inj hlast).symm)
    | output append =>
        cases append <;> exact .inr (.inr (Option.some.inj hlast).symm)
    | descriptor digits append =>
        rw [render, String.toList_append, List.getLast?_append] at hlast
        cases append <;> exact .inr (.inr (Option.some.inj hlast).symm)
  rcases hsign with rfl | rfl | rfl <;> decide

/-- Digits that stand before an output operator belong to it, unless a backslash guards them. -/
theorem Stretch.Fits.escape_before_digit {x : Stretch} {rest v : List Char} {c : Char}
    (h : x.Fits rest) (hrest : SignAhead rest) (hx : x.chars = v ++ [c]) (hc : c.isDigit = true) :
    (fresh.run v).1 = .escape .bare := by
  cases h with
  | @blank b rest h =>
      have hb : v = [] ∧ c = b := by simpa [List.singleton_eq_append_iff] using hx
      rcases hb with ⟨-, rfl⟩
      simp only [isBlank, Bool.or_eq_true, beq_iff_eq] at h
      rcases h with rfl | rfl <;> exact absurd hc (by decide)
  | operator hop hgrow =>
      rw [hop.last_not_digit hx] at hc
      cases hc
  | @word w out rest s hw h hstop =>
      obtain rfl : w = v ++ [c] := hx
      have hne : rest ≠ [] := by
        rintro rfl
        exact not_signAhead_nil hrest
      -- The word did not end before `c`, although an operator follows, so it could not end there.
      have hbefore : (fresh.run v).1.mayEnd = false := by
        have hunbroken := (unbroken_append.1 h.unbroken).2.1
        have hends : endsWord (c :: rest) = true :=
          endsWord_cons_iff.2 (.inr (.inr (.inr (signAhead_cons.2 (.inr ⟨hc, hrest⟩)))))
        simpa [hends] using hunbroken
      have hafter : ((fresh.run v).1.step c).1.mayEnd = true := by
        have hrun := congrArg Prod.fst h.run_eq
        rw [run_append] at hrun
        have hs : ((fresh.run v).1.step c).1 = s := hrun
        rw [hs]
        exact (hstop.resolve_left hne).1
      have hopen : (fresh.run v).1.IsOpen := isOpen_run (s := fresh) trivial v
      exact eq_escape_of_step_digit hopen hc hbefore hafter

/-- The automaton runs through stretches as if the line began behind them. -/
theorem Cut.run_through {xs ys : List Stretch} {t : List Char} (h : Cut (xs ++ ys)) (ht : t ≠ [])
    (hpre : t <+: text ys) : (fresh.run (text xs ++ t)).1 = (fresh.run t).1 := by
  induction xs with
  | nil => rfl
  | cons x xs ih =>
      have hrest : text xs ++ t <+: text (xs ++ ys) := by
        rw [text_append]
        exact (List.prefix_append_right_inj _).2 hpre
      have hx : x.Fits (text (xs ++ ys)) := h.1
      rw [text_cons, List.append_assoc, hx.run_through (by simp [ht]) hrest, ih h.2]

/-- An operator stands in the line as it is shown. -/
theorem Stretch.Fits.chars_eq_render {x : Stretch} {rest : List Char} {token : Token}
    (h : x.Fits rest) (hx : x.token? = some token) (hword : ∀ raw, token ≠ .word raw) :
    token.IsOperator ∧ x.chars = token.render.toList := by
  cases h with
  | blank h => cases hx
  | operator hop hgrow =>
      cases hx
      exact ⟨hop, rfl⟩
  | @word v out rest s hv h hstop =>
      simp only [ofWord] at hx
      split at hx
      · cases hx
      · exact absurd (Option.some.inj hx).symm (hword _)

/-- A sign with a descriptor is ahead at its digits. -/
theorem signAhead_descriptor {digits : String} {append : Bool}
    (h : (Token.descriptor digits append).IsOperator) (rest : List Char) :
    SignAhead ((Token.descriptor digits append).render.toList ++ rest) := by
  rw [SignAhead, Token.render, String.toList_append, List.append_assoc,
    List.dropWhile_append_of_pos h.2]
  cases append <;> rfl

/-- A digit right before the operator of a descriptor is no digit of it only behind a backslash. -/
theorem escape_before_descriptor {front back : List Stretch} {x : Stretch} {digits : String}
    {append : Bool} (h : Cut (front ++ x :: back))
    (hx : x.token? = some (.descriptor digits append)) {pre : List Char} {c : Char}
    (hpre : text front = pre ++ [c]) (hc : c.isDigit = true) :
    (fresh.run pre).1 = .escape .bare := by
  rcases List.eq_nil_or_concat front with rfl | ⟨front, y, rfl⟩
  · simp at hpre
  rw [List.concat_eq_append] at h hpre
  rw [List.append_assoc] at h
  have hy : y.Fits (x.chars ++ text back) := h.right.1
  -- The digit is the last character of the stretch before the operator.
  rcases List.eq_nil_or_concat y.chars with hnil | ⟨v, d, hv⟩
  · exact absurd hnil hy.chars_ne_nil
  rw [List.concat_eq_append] at hv
  have hsplit : text front ++ v = pre ∧ d = c := by
    have hchars : (text front ++ v) ++ [d] = pre ++ [c] := by
      rw [← hpre, text_append, text_cons, hv]
      simp
    simpa using List.append_inj' hchars rfl
  rcases hsplit with ⟨rfl, rfl⟩
  have hsign : SignAhead (x.chars ++ text back) := by
    rcases h.right.2.1.chars_eq_render hx (by simp) with ⟨hop, hchars⟩
    rw [hchars]
    exact signAhead_descriptor hop _
  have hescape := hy.escape_before_digit hsign hv hc
  have hne : v ≠ [] := by
    rintro rfl
    cases hescape
  have hprefix : v <+: text (y :: x :: back) := by
    rw [text_cons, hv, List.append_assoc]
    exact List.prefix_append _ _
  rw [h.run_through hne hprefix, hescape]

/-! ## Lines -/

/-- The places of a lexeme in its line. -/
structure Lexeme.Located (line : List Char) (lexeme : Lexeme) : Prop where
  start : lexeme.start.IsPlaceOf line
  stop : lexeme.stop.IsPlaceOf line
  nonempty : lexeme.start.column < lexeme.stop.column ∧ lexeme.start.offset < lexeme.stop.offset
  /-- The text between the places is read as the token and nothing else. -/
  tokens_eq : tokens (lexeme.source line) = [lexeme.token]
  /-- An operator is written there as it is shown. -/
  written : (∀ raw, lexeme.token ≠ .word raw) → lexeme.source line = lexeme.token.render.toList
  /-- The operator of a descriptor takes all digits before it that no backslash guards. -/
  digits : ∀ digits append, lexeme.token = .descriptor digits append → ∀ pre c,
    line.take (lexeme.start.column - 1) = pre ++ [c] → c.isDigit = true →
      (fresh.run pre).1 = .escape .bare

/-- Each lexeme has the place where its text stands. -/
theorem located_of_mem_lex {line : List Char} {lexeme : Lexeme} (h : lexeme ∈ lex line) :
    lexeme.Located line := by
  rcases exists_cut line with ⟨xs, hcut, rfl⟩
  rw [lex, lexFrom_text hcut] at h
  rcases exists_stretch_of_mem_locate h with ⟨front, x, back, rfl, htoken, hstart, hstop⟩
  have hline : text (front ++ x :: back) = text front ++ (x.chars ++ text back) := by simp
  -- The stretch of the lexeme is what stands between its two places.
  have hsource : lexeme.source (text (front ++ x :: back)) = x.chars := by
    have hbetween := between_past hline
    rw [← hstart, ← hstop] at hbetween
    exact hbetween
  have hx := hcut.right.1
  have hchars : 0 < x.chars.length := List.length_pos_iff.2 hx.chars_ne_nil
  have hbytes : (String.ofList x.chars).utf8ByteSize ≠ 0 := by
    rw [Ne, String.utf8ByteSize_eq_zero_iff]
    simpa using hx.chars_ne_nil
  constructor
  · rw [hstart]
    exact Position.isPlaceOf_past (by simp)
  · rw [hstop]
    exact Position.isPlaceOf_past (by simp)
  · simp only [hstart, hstop, Position.past_append, Position.past_column, Position.past_offset]
    omega
  · rw [hsource, tokens_chars hcut, htoken]
    rfl
  · intro hword
    rw [hsource]
    exact (hx.chars_eq_render htoken hword).2
  · intro digits append hdigits pre c hpre hc
    rw [hdigits] at htoken
    have hfront : (text (front ++ x :: back)).take (lexeme.start.column - 1) = text front := by
      rw [hstart, Position.past_column, hline]
      simp [Position.start]
    exact escape_before_descriptor hcut htoken (hfront ▸ hpre) hc

/-- Between tokens nothing is said, and behind them at most a lone backslash. -/
theorem gaps_eq (line : List Char) :
    ∃ inner u e, gaps line = inner ++ [u ++ e] ∧
      (∀ gap ∈ inner, tokens gap = [] ∧ Void gap) ∧ tokens (u ++ e) = [] ∧ Void u ∧
      e ∈ dangling := by
  rcases exists_cut line with ⟨xs, hcut, rfl⟩
  have hgaps := @gapsFrom_locate (text xs) [] [] xs rfl hcut (by simp)
  rw [gaps, lex, lexFrom_text hcut]
  exact hgaps

/-- Every lexeme of a line is located, lexemes follow one another without overlapping, and no text
between them leaves a token. Before and between the lexemes there are only blanks and empty quotes.
Behind the last one the line may also end with a quote that is not closed or with a lone
backslash. -/
theorem spans_locate_tokens (line : List Char) :
    (∀ lexeme ∈ lex line, lexeme.Located line) ∧
    (lex line).Pairwise (fun x y => x.stop.NotBehind y.start) ∧
    (∀ gap ∈ gaps line, tokens gap = []) ∧
    ∃ inner u e, gaps line = inner ++ [u ++ e] ∧ (∀ gap ∈ inner, Void gap) ∧ Void u ∧
      e ∈ dangling := by
  refine ⟨fun lexeme => located_of_mem_lex, ?_, ?_, ?_⟩
  · rcases exists_cut line with ⟨xs, hcut, rfl⟩
    rw [lex, lexFrom_text hcut]
    exact pairwise_locate _ _
  · rcases gaps_eq line with ⟨inner, u, e, hgaps, hinner, hlast, -, -⟩
    intro gap hgap
    rw [hgaps, List.mem_append, List.mem_singleton] at hgap
    rcases hgap with hgap | rfl
    · exact (hinner gap hgap).1
    · exact hlast
  · rcases gaps_eq line with ⟨inner, u, e, hgaps, hinner, -, hu, he⟩
    exact ⟨inner, u, e, hgaps, fun gap hgap => (hinner gap hgap).2, hu, he⟩

/-- In `\12>é`, the operator takes the second digit only, since the first is escaped. -/
theorem escaped_digit_is_left : ⟨.descriptor "2" false, ⟨3, 2⟩, ⟨5, 4⟩⟩ ∈ lex "\\12>é".toList ∧
    (fresh.run "\\".toList).1 = .escape .bare := by
  have hmem : ⟨.descriptor "2" false, ⟨3, 2⟩, ⟨5, 4⟩⟩ ∈ lex "\\12>é".toList := by
    decide +kernel
  exact ⟨hmem, ((spans_locate_tokens "\\12>é".toList).1 _ hmem).digits "2" false rfl
    "\\".toList '1' (by decide) (by decide)⟩

/-- A lone backslash is skipped, though it is neither a blank nor an empty quote, and a digit right
before the operator of a descriptor need not belong to it. -/
theorem lone_backslash_is_skipped :
    (lex "\\".toList = [] ∧ gaps "\\".toList = ["\\".toList] ∧ ¬ Void "\\".toList) ∧
      tokens "\\12>f".toList = [.word "1", .descriptor "2" false, .word "f"] := by
  refine ⟨⟨by decide +kernel, by decide +kernel, ?_⟩, by decide +kernel⟩
  intro h
  cases h with
  | blank h _ => exact absurd h (by decide)

end LineShell
