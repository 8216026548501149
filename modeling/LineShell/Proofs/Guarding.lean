import LineShell.Proofs.Chunks
import LineShell.Proofs.Reading

/-!
# Guarding — what becomes of quoted and escaped characters

Single quotes and backslashes take the meaning of a character away. The lexer removes them before
the reader of parts looks for expansions, and marks only dollar signs. So a guarded character can
still complete an expansion that an unguarded dollar sign begins. This file says exactly when.

* `Guarded w i c` — the written word `w` holds the guarded character `c`, whose trace stands at
  place `i` of the word's text;
* `StandsAsText raw i c` — the reader of parts takes place `i` of the text as the plain character
  `c`;
* `Seized w raw i` — place `i` belongs to a variable, or to a substitution that the lexer did not
  open itself;
* `guarded_is_text_iff_not_seized` — the first two differ exactly in the third, and in the mark.

Nothing is claimed about characters inside the substitutions that the lexer copies: those are read
later, as lines of their own.
-/

namespace LineShell

open Reading

/-! ## Guarded characters -/

/-- In this state single quotes or a backslash take away the meaning of the next character. -/
def Reading.guards : Reading → Char → Bool
  | .text .single _, c => c != '\''
  | .escape q, c => q != .double || isEscapable c
  | _, _ => false

/-- The written word `w` holds the guarded character `c`, and what the lexer makes of it stands at
place `i` of the word's text. -/
def Guarded (w : List Char) (i : Nat) (c : Char) : Prop :=
  ∃ u v, w = u ++ c :: v ∧ (Reading.fresh.run u).1.guards c = true ∧
    (Reading.fresh.run u).2.length = i

/-- A guarded character leaves one character in the text: itself, or the mark of a dollar sign. -/
theorem Reading.step_of_guards {s : Reading} {c : Char} (h : s.guards c = true) :
    (s.step c).2 = [protect c] := by
  cases s with
  | text q dollar =>
      cases q with
      | single =>
          have hc : c ≠ '\'' := by simpa [guards] using h
          have htoggle : Quote.single.toggle c = .single := by
            simp [Quote.toggle, hc]
          unfold step
          by_cases hparen : dollar = true ∧ c = '('
          · simp [hparen, protect]
          · by_cases hdollar : c = '$'
            · subst hdollar
              simp [htoggle, protect]
            · simp [hparen, htoggle, hdollar, protect]
      | bare => simp [guards] at h
      | double => simp [guards] at h
  | escape q =>
      have hnot : ¬ (q = .double ∧ ¬ isEscapable c = true) := by
        rintro ⟨rfl, hc⟩
        simp [guards, hc] at h
      simp only [step, if_neg hnot]
  | body b q => simp [guards] at h

/-- A guarded character stands protected in the raw word. -/
theorem Guarded.getElem? {w raw : List Char} {s : Reading} {i : Nat} {c : Char}
    (h : Guarded w i c) (hrun : Reading.fresh.run w = (s, raw)) : raw[i]? = some (protect c) := by
  rcases h with ⟨u, v, rfl, hg, rfl⟩
  rw [run_append, run_cons, step_of_guards hg] at hrun
  rcases Prod.mk.inj hrun with ⟨-, rfl⟩
  simp

/-! ## Stretches without guards -/

/-- Read from the state `s`, no character of `w` is guarded. -/
def Unguarded (s : Reading) (w : List Char) : Prop :=
  ∀ t c t', w = t ++ c :: t' → (s.run t).1.guards c = false

/-- The traces of guarded characters lie before or behind an unguarded stretch. -/
theorem Guarded.outside {u r rest : List Char} {i : Nat} {c : Char}
    (hr : Unguarded (Reading.fresh.run u).1 r) (h : Guarded (u ++ (r ++ rest)) i c) :
    i < (Reading.fresh.run u).2.length ∨ (Reading.fresh.run (u ++ r)).2.length ≤ i := by
  rcases h with ⟨u', v', heq, hg, rfl⟩
  -- Everything read behind a guarded character comes behind its trace.
  have hbehind (b : List Char) : (Reading.fresh.run u').2.length <
      (Reading.fresh.run (u' ++ c :: b)).2.length := by
    rw [run_append, run_cons, step_of_guards hg]
    simp
  -- The guarded character stands behind the stretch, in it or before it.
  rcases List.append_eq_append_iff.1 heq with ⟨a, rfl, ha⟩ | ⟨b, rfl, hb⟩
  · rcases List.append_eq_append_iff.1 ha with ⟨a', rfl, -⟩ | ⟨b, rfl, hb⟩
    · right
      rw [← List.append_assoc, run_append _ (u ++ r)]
      simp
    · cases b with
      | nil =>
          right
          simp
      | cons d b =>
          rcases List.cons.inj hb with ⟨rfl, -⟩
          rw [run_append] at hg
          exact absurd (hr a c b rfl) (by simp [hg])
  · cases b with
    | nil =>
        cases r with
        | nil => simp
        | cons d r =>
            rcases List.cons.inj hb with ⟨rfl, -⟩
            have hfree : (Reading.fresh.run u').1.guards c = false := by
              simpa using hr [] c r rfl
            exact absurd hfree (by simp [hg])
    | cons d b =>
        rcases List.cons.inj hb with ⟨rfl, -⟩
        exact .inl (hbehind b)

/-! ## Substitutions that the lexer opens -/

/-- The lexer opens a substitution whose dollar sign stands at place `j` of the word's text. -/
def OpenedAt (w : List Char) (j : Nat) : Prop :=
  ∃ u v q dollar, w = u ++ '$' :: '(' :: v ∧ (Reading.fresh.run u).1 = .text q dollar ∧
    q ≠ .single ∧ (Reading.fresh.run u).2.length = j

/-- A body that does not close takes all that is left. -/
theorem run_body_of_split?_eq_none {b : Body} {q : Quote} {cs : List Char}
    (h : b.split? cs = none) : (Reading.body b q).run cs = (.body (b.run cs) q, cs) := by
  induction cs generalizing b with
  | nil => rfl
  | cons c cs ih =>
      rcases Body.split?_cons_eq_none_iff.1 h with ⟨hc, htail⟩
      rw [run_cons, step_body_of_open hc, ih htail]
      rfl

/-- Nothing is guarded before a substitution is closed. -/
theorem unguarded_body {b : Body} {q : Quote} {cs : List Char}
    (h : ∀ inner rest, b.split? cs = some (inner, rest) → rest = []) :
    Unguarded (.body b q) cs := by
  intro t c t' hcs
  induction t generalizing b cs with
  | nil => rfl
  | cons d t ih =>
      subst hcs
      rw [List.cons_append, Body.split?] at h
      by_cases hd : (b.step d).depth = 0
      · have hrest := h [] (t ++ c :: t') (by simp [hd])
        simp at hrest
      · rw [run_cons, step_body_of_open hd]
        refine ih (fun inner rest hsplit => ?_) rfl
        exact h (d :: inner) rest (by simp [hd, hsplit])

/-- A substitution that takes up the rest leaves nothing to guard. -/
theorem unguarded_substitution {q : Quote} {dollar : Bool} {r : List Char} (hq : q ≠ .single)
    (h : ∀ inner rest, Body.opened.split? r = some (inner, rest) → rest = []) :
    Unguarded (.text q dollar) ('$' :: '(' :: r) := by
  intro t c t' hr
  match t, hr with
  | [], hr => cases q <;> simp_all [guards]
  | [d], hr =>
      rcases List.cons.inj hr with ⟨rfl, hr⟩
      rw [run_cons, step_dollar hq]
      cases q <;> simp_all [guards]
  | d :: e :: t, hr =>
      simp only [List.cons_append, List.cons.injEq] at hr
      rcases hr with ⟨rfl, rfl, hr⟩
      rw [run_cons, step_dollar hq, run_cons, step_substitution]
      exact unguarded_body h t c t' hr

/-- A body that closes closes at the same place without what follows. -/
theorem split?_eq_some_of_region {v inner rest : List Char}
    (h : Body.opened.split? v = some (inner, rest)) :
    v = (inner ++ [')']) ++ rest ∧ Body.opened.split? (inner ++ [')']) = some (inner, []) := by
  have hv := Body.eq_append_close_of_split? (by decide) h
  subst hv
  exact ⟨by simp, Body.split?_eq_self_iff_balanced.2 (Body.split?_eq_self_iff_balanced.1 h)⟩

/-- What the lexer copies behind `$(`: the text up to the closing parenthesis, or all of it. The
reader of parts finds the same stretch. -/
theorem exists_copied (q : Quote) (v : List Char) :
    ∃ r rest, v = r ++ rest ∧
      (∀ inner rest', Body.opened.split? r = some (inner, rest') → rest' = []) ∧
      ((Reading.body .opened q).run r).2 = r ∧
      (Chunk.substitution (substitutionBody ((Reading.body .opened q).run v).2).1
        (closes ((Reading.body .opened q).run v).2)).written = '$' :: '(' :: r := by
  cases hsplit : Body.opened.split? v with
  | none =>
      have hrun := run_body_of_split?_eq_none (q := q) hsplit
      refine ⟨v, [], by simp, by simp [hsplit], by rw [hrun], ?_⟩
      rw [hrun]
      simp [substitutionBody, closes, hsplit, Chunk.written]
  | some r =>
      rcases r with ⟨inner, rest⟩
      rcases split?_eq_some_of_region hsplit with ⟨rfl, hclose⟩
      have hregion : (Reading.body .opened q).run (inner ++ [')']) =
          (.text q false, inner ++ [')']) := (@Reads.body _ _ _ _ [] hclose).run_eq
      have hmore := Body.split?_append hclose ((Reading.text q false).run rest).2
      refine ⟨inner ++ [')'], rest, rfl, ?_, by rw [hregion], ?_⟩
      · intro inner' rest' h
        rw [hclose] at h
        simp only [Option.some.injEq, Prod.mk.injEq] at h
        exact h.2.symm
      · rw [run_append, hregion]
        simp only [substitutionBody, closes, hmore, Chunk.written]
        simp

/-- The text of a substitution that the lexer opens is found by the reader of parts as well, and no
guarded character stands in it. -/
theorem OpenedAt.not_guarded {w raw : List Char} {s : Reading} {j i : Nat} {c : Char}
    {inner : List Char} {closed : Bool} (hrun : Reading.fresh.run w = (s, raw))
    (hopen : OpenedAt w j) (hchunk : ChunkAt raw j (.substitution inner closed))
    (hj : j ≤ i) (hi : i < j + (Chunk.substitution inner closed).written.length) :
    ¬ Guarded w i c := by
  intro hguarded
  rcases hopen with ⟨u, v, q, dollar, rfl, hstate, hq, rfl⟩
  rcases hchunk.substitution_eq with ⟨a, y, hy, ha, rfl, rfl⟩
  -- The lexer has left `$(` and what it read of `v`, so the scanner works on the latter.
  have hraw : raw = (Reading.fresh.run u).2 ++
      '$' :: '(' :: ((Reading.body .opened q).run v).2 := by
    rw [run_append, hstate, run_cons, step_dollar hq, run_cons, step_substitution] at hrun
    exact (Prod.mk.inj hrun).2.symm
  have hbody : y = ((Reading.body .opened q).run v).2 := by
    rw [hraw] at hy
    rcases List.append_inj hy ha.symm with ⟨-, htail⟩
    simp only [List.cons.injEq, true_and] at htail
    exact htail.symm
  subst hbody
  rcases exists_copied q v with ⟨r, rest, rfl, hregion, hcopied, hwritten⟩
  have hfree : Unguarded (Reading.fresh.run u).1 ('$' :: '(' :: r) := by
    rw [hstate]
    exact unguarded_substitution hq hregion
  have hlength : (Reading.fresh.run (u ++ '$' :: '(' :: r)).2.length =
      (Reading.fresh.run u).2.length + ('$' :: '(' :: r).length := by
    rw [run_append, hstate, run_cons, step_dollar hq, run_cons, step_substitution]
    simp [hcopied]
  rw [hwritten] at hi
  rcases @Guarded.outside _ _ rest _ _ hfree (by simpa using hguarded) with hbefore | hbehind
  · omega
  · omega

/-! ## Plain text and expansions -/

/-- The reader of parts takes place `i` of the text as the plain character `c`. -/
def StandsAsText (raw : List Char) (i : Nat) (c : Char) : Prop :=
  ∃ x, ChunkAt raw i (.literal x) ∧ unprotect x = c

/-- An expansion at place `j` that may take guarded characters: any variable, and a substitution
that the lexer did not open. -/
def Chunk.MaySeize (w : List Char) (j : Nat) : Chunk → Prop
  | .literal _ => False
  | .bare _ => True
  | .braced _ => True
  | .substitution _ _ => ¬ OpenedAt w j

/-- Place `i` of the text belongs to an expansion that may take guarded characters. -/
def Seized (w raw : List Char) (i : Nat) : Prop :=
  ∃ j k, ChunkAt raw j k ∧ k.MaySeize w j ∧ j ≤ i ∧ i < j + k.written.length

/-- An expansion begins with a dollar sign, so without one nothing behind it is seized. -/
theorem not_seized_of_no_dollar {w raw : List Char} {i : Nat} (h : '$' ∉ raw.take (i + 1)) :
    ¬ Seized w raw i := by
  rintro ⟨j, k, hchunk, hseize, hj, hi⟩
  rcases hchunk.eq_append with ⟨a, b, hraw, ha⟩
  have hhead : ∃ tail, k.written = '$' :: tail := by
    cases k with
    | literal x => exact hseize.elim
    | bare name => exact ⟨name, rfl⟩
    | braced name => exact ⟨'{' :: name ++ ['}'], rfl⟩
    | substitution inner closed => exact ⟨'(' :: inner ++ _, rfl⟩
  rcases hhead with ⟨tail, htail⟩
  apply h
  rw [hraw, htail, List.take_append, List.mem_append]
  right
  have hpos : i + 1 - a.length = (i - a.length) + 1 := by omega
  rw [hpos, List.cons_append, List.take_succ_cons]
  exact List.mem_cons_self ..

/-- A guarded character is text unless a substitution seizes it. -/
theorem stands_as_text_iff {w raw : List Char} {s : Reading} {i : Nat} {c : Char}
    (hrun : Reading.fresh.run w = (s, raw)) (h : Guarded w i c) :
    StandsAsText raw i c ↔ c ≠ protectedDollar ∧ ¬ Seized w raw i := by
  have hget := h.getElem? hrun
  constructor
  · -- Plain text at place `i` leaves no room for an expansion there.
    rintro ⟨x, hchunk, hx⟩
    rcases hchunk.eq_append with ⟨a, b, hraw, ha⟩
    have hxc : x = protect c := by
      rw [hraw, ← ha] at hget
      simpa [Chunk.written] using hget
    subst hxc
    refine ⟨?_, ?_⟩
    · rintro rfl
      exact absurd hx (by decide)
    · rintro ⟨j, k, hchunk', hseize, hj, hi⟩
      rcases hchunk'.unique hchunk ⟨hj, hi⟩ ⟨Nat.le_refl i, by simp [Chunk.written]⟩ with ⟨-, rfl⟩
      exact hseize
  · -- Some chunk covers the place, and only a literal is left.
    rintro ⟨hmark, hseized⟩
    have hlt : i < raw.length := (List.getElem?_eq_some_iff.1 hget).1
    rcases ChunkAt.exists_of_lt hlt with ⟨j, k, hchunk, hj, hi⟩
    cases k with
    | literal x =>
        have hij : i = j := by
          simp only [Chunk.written, List.length_singleton] at hi
          omega
        subst hij
        rcases hchunk.eq_append with ⟨a, b, hraw, ha⟩
        have hxc : x = protect c := by
          rw [hraw, ← ha] at hget
          simpa [Chunk.written] using hget
        exact ⟨x, hchunk, by rw [hxc, unprotect_protect hmark]⟩
    | bare name => exact absurd ⟨j, _, hchunk, trivial, hj, hi⟩ hseized
    | braced name => exact absurd ⟨j, _, hchunk, trivial, hj, hi⟩ hseized
    | substitution inner closed =>
        -- If the lexer opened it, it holds no guarded character.
        refine absurd ⟨j, _, hchunk, ?_, hj, hi⟩ hseized
        intro hopen
        exact hopen.not_guarded hrun hchunk hj hi h

/-! ## Words of a line -/

def Lexeme.source (line : List Char) (lexeme : Lexeme) : List Char :=
  (line.drop (lexeme.start.column - 1)).take (lexeme.stop.column - lexeme.start.column)

theorem Position.past_column (p : Position) (cs : List Char) :
    (p.past cs).column = p.column + cs.length := by
  induction cs generalizing p with
  | nil => rfl
  | cons c cs ih =>
      rw [past_cons, ih]
      simp only [advance, List.length_cons]
      omega

/-- The text of a word is what the lexer makes of its source. -/
theorem exists_run_source {line : List Char} {lexeme : Lexeme} {raw : String}
    (hmem : lexeme ∈ lex line) (htoken : lexeme.token = .word raw) :
    ∃ s, Reading.fresh.run (lexeme.source line) = (s, raw.toList) := by
  rcases foundIn_of_mem_lexFrom hmem htoken with ⟨a, w, b, s, rfl, hstart, hstop, hread, -⟩
  have hsource : lexeme.source (a ++ (w ++ b)) = w := by
    simp only [Lexeme.source, hstart, hstop, Position.past_column, Position.start,
      List.length_append]
    have hdrop : 1 + a.length - 1 = a.length := by omega
    have htake : 1 + (a.length + w.length) - (1 + a.length) = w.length := by omega
    rw [hdrop, htake, List.drop_left, List.take_left]
  exact ⟨s, by rw [hsource, hread.run_eq]⟩

/-- A word has one part for each chunk of its text. A guarded character of it is plain text, and
stands for itself, exactly when it is not the mark and no expansion seizes it: a variable, or a
substitution that the lexer did not open. Without a dollar sign before it in the word's text there
is nothing to seize it. -/
theorem guarded_is_text_iff_not_seized {line : List Char} {lexeme : Lexeme} {raw : String} {i : Nat}
    {c : Char} (hmem : lexeme ∈ lex line) (htoken : lexeme.token = .word raw)
    (hguarded : Guarded (lexeme.source line) i c) :
    (∀ sub column, readParts sub column raw =
      ((chunks raw.toList).mapM (Chunk.toPart sub column)).map Word.merge) ∧
    (StandsAsText raw.toList i c ↔
      c ≠ protectedDollar ∧ ¬ Seized (lexeme.source line) raw.toList i) ∧
    ('$' ∉ raw.toList.take (i + 1) → ¬ Seized (lexeme.source line) raw.toList i) := by
  rcases exists_run_source hmem htoken with ⟨s, hrun⟩
  refine ⟨?_, stands_as_text_iff hrun hguarded, not_seized_of_no_dollar⟩
  intro sub column
  exact readParts_eq_merge raw

/-- The parenthesis in `echo '$(ls)'`. -/
theorem quoted_parenthesis_is_text :
    Lexeme.mk (.word "\x00(ls)") ⟨6, 5⟩ ⟨13, 12⟩ ∈ lex "echo '$(ls)'".toList ∧
      Guarded "'$(ls)'".toList 1 '(' ∧ StandsAsText "\x00(ls)".toList 1 '(' := by
  have hmem : Lexeme.mk (.word "\x00(ls)") ⟨6, 5⟩ ⟨13, 12⟩ ∈ lex "echo '$(ls)'".toList := by
    have hlex : lex "echo '$(ls)'".toList =
        [⟨.word "echo", ⟨1, 0⟩, ⟨5, 4⟩⟩, ⟨.word "\x00(ls)", ⟨6, 5⟩, ⟨13, 12⟩⟩] := by
      with_unfolding_all rfl
    rw [hlex]
    simp
  have hguarded : Guarded "'$(ls)'".toList 1 '(' :=
    ⟨['\'', '$'], "ls)'".toList, by decide, by decide, by decide⟩
  have hlaw := guarded_is_text_iff_not_seized hmem rfl hguarded
  exact ⟨hmem, hguarded, hlaw.2.1.2 ⟨by decide, hlaw.2.2 (by decide)⟩⟩

/-- In `echo $'(ls)'` the quoted parenthesis opens a substitution. -/
theorem quoted_parenthesis_opens_substitution :
    Lexeme.mk (.word "$(ls)") ⟨6, 5⟩ ⟨13, 12⟩ ∈ lex "echo $'(ls)'".toList ∧
      Guarded "$'(ls)'".toList 1 '(' ∧ ¬ StandsAsText "$(ls)".toList 1 '(' ∧
      Pipeline.parse "echo $'(ls)'" =
        .ok [⟨[.text "echo"], [[.substitution [⟨[.text "ls"], [], []⟩]]], []⟩] := by
  have hlex : lex "echo $'(ls)'".toList =
      [⟨.word "echo", ⟨1, 0⟩, ⟨5, 4⟩⟩, ⟨.word "$(ls)", ⟨6, 5⟩, ⟨13, 12⟩⟩] := by
    with_unfolding_all rfl
  have hchunks : chunks "$(ls)".toList = [.substitution ['l', 's'] true] := by
    with_unfolding_all rfl
  have hparse : Pipeline.parse "echo $'(ls)'" =
      .ok [⟨[.text "echo"], [[.substitution [⟨[.text "ls"], [], []⟩]]], []⟩] := by
    with_unfolding_all rfl
  have hguarded : Guarded "$'(ls)'".toList 1 '(' :=
    ⟨['$', '\''], "ls)'".toList, by decide, by decide, by decide⟩
  refine ⟨by rw [hlex]; simp, hguarded, ?_, hparse⟩
  rintro ⟨x, ⟨front, back, hfront, hplace⟩, -⟩
  rw [hchunks] at hfront
  have hmem : Chunk.literal x ∈ [Chunk.substitution ['l', 's'] true] := by
    rw [hfront]
    simp
  simp at hmem

end LineShell
