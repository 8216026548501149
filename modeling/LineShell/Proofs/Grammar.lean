import LineShell.Proofs.Grouping

/-!
# Grammar — which lines can be read

A line can be read if every redirection operator in it is followed by a word, also in the texts of
its substitutions, and if these are not nested too deeply. Any other line is reported with its first
offence in reading order.

* `Nested`, `GrammaticalWithin` — the texts inside a text, and what is asked of each;
* `OffenceIn`, `Offence` — what is wrong with a line, with the place where it shows;
* `Judges` — a reading that finds the first offence, or finds none;
* `parse_accepts_grammar` — the parser accepts the grammar and nothing else.

A place is a list of numbers. It counts the lexemes of a text and, in a word, its segments, and goes
on inside the text of a substitution. Reading order is the lexicographic order of places
(`NotAfter`).
-/

namespace LineShell

/-! ## The grammar -/

def TargetsFollow (ts : List Token) : Prop :=
  ∀ i t, ts[i]? = some t → t.redirects? ≠ none → ∃ raw, ts[i + 1]? = some (.word raw)

def Inner (cs inner : List Char) : Prop :=
  ∃ raw, .word raw ∈ tokens cs ∧ .body inner ∈ Segment.split raw.toList

/-- A text that stands in the first one inside so many substitutions. -/
inductive Nested : List Char → Nat → List Char → Prop where
  | here (cs : List Char) : Nested cs 0 cs
  | inside {cs inner found : List Char} {depth : Nat} (hinner : Inner cs inner)
      (h : Nested inner depth found) : Nested cs (depth + 1) found

/-- Operators have their targets on every level, and there are at most so many levels. -/
def GrammaticalWithin (n : Nat) (cs : List Char) : Prop :=
  ∀ depth found, Nested cs depth found → depth ≤ n ∧ TargetsFollow (tokens found)

/-- Within no limit, a line is grammatical only without substitutions. -/
theorem grammaticalWithin_zero_iff {cs : List Char} :
    GrammaticalWithin 0 cs ↔ TargetsFollow (tokens cs) ∧ ∀ inner, ¬ Inner cs inner := by
  constructor
  · intro h
    refine ⟨(h 0 cs (.here cs)).2, ?_⟩
    intro inner hinner
    exact absurd (h 1 inner (.inside hinner (.here inner))).1 (Nat.not_succ_le_zero 0)
  · rintro ⟨htargets, hinner⟩ depth found hnested
    cases hnested with
    | here => exact ⟨Nat.le_refl 0, htargets⟩
    | inside hin _ => exact absurd hin (hinner _)

/-- One level more is one level more for each inner text. -/
theorem grammaticalWithin_succ_iff {n : Nat} {cs : List Char} :
    GrammaticalWithin (n + 1) cs ↔
      TargetsFollow (tokens cs) ∧ ∀ inner, Inner cs inner → GrammaticalWithin n inner := by
  constructor
  · intro h
    refine ⟨(h 0 cs (.here cs)).2, ?_⟩
    intro inner hinner depth found hnested
    rcases h _ _ (.inside hinner hnested) with ⟨hdepth, htargets⟩
    exact ⟨Nat.le_of_succ_le_succ hdepth, htargets⟩
  · rintro ⟨htargets, hinner⟩ depth found hnested
    cases hnested with
    | here => exact ⟨Nat.zero_le _, htargets⟩
    | inside hin hnested =>
        rcases hinner _ hin _ _ hnested with ⟨hdepth, htargets⟩
        exact ⟨Nat.succ_le_succ hdepth, htargets⟩

/-! ## Offences -/

/-- What is wrong, given by a place and by the error to report. -/
abbrev Offences := List Nat → SyntaxError → Prop

/-- What is wrong with the lexemes of a text, given what is wrong with the texts of substitutions in
a word at some column. -/
inductive OffenceIn (body : Nat → List Char → Offences) (xs : List Lexeme) : Offences where
  /-- An operator at the end of the text. -/
  | missing {i : Nat} {x : Lexeme} (hx : xs[i]? = some x) (hop : x.token.redirects? ≠ none)
      (hnext : xs[i + 1]? = none) :
      OffenceIn body xs [i] ⟨.missingTarget x.token, x.start.column⟩
  /-- An operator in front of something that is no word. -/
  | misplaced {i : Nat} {x y : Lexeme} (hx : xs[i]? = some x) (hop : x.token.redirects? ≠ none)
      (hnext : xs[i + 1]? = some y) (hy : ∀ raw, y.token ≠ .word raw) :
      OffenceIn body xs [i] ⟨.misplacedToken x.token y.token, x.start.column⟩
  /-- A substitution in a word. -/
  | inside {i j : Nat} {x : Lexeme} {raw : String} {inner : List Char} {place : List Nat}
      {e : SyntaxError} (hx : xs[i]? = some x) (hraw : x.token = .word raw)
      (hj : (Segment.split raw.toList)[j]? = some (.body inner))
      (h : body x.start.column inner place e) : OffenceIn body xs (i :: j :: place) e

/-- What is wrong with a text in a substitution when so many levels are left: with none, it stands
too deep. -/
def bodyOffence : Nat → Nat → List Char → Offences
  | 0, column, _ => fun place e => place = [] ∧ e = ⟨.tooDeep, column⟩
  | n + 1, _, inner => OffenceIn (bodyOffence n) (lex inner)

/-- What is wrong with a text in which substitutions may nest to so many levels. -/
def Offence (n : Nat) (cs : List Char) : Offences :=
  OffenceIn (bodyOffence n) (lex cs)

/-- The first place is the second one or comes before it in reading order. -/
def NotAfter : List Nat → List Nat → Prop
  | [], _ => True
  | _ :: _, [] => False
  | i :: place, i' :: place' => i < i' ∨ i = i' ∧ NotAfter place place'

theorem NotAfter.antisymm {place place' : List Nat} (h : NotAfter place place')
    (h' : NotAfter place' place) : place = place' := by
  induction place generalizing place' with
  | nil =>
      cases place' with
      | nil => rfl
      | cons i' place' => exact h'.elim
  | cons i place ih =>
      cases place' with
      | nil => exact h.elim
      | cons i' place' =>
          rcases h with hlt | ⟨rfl, h⟩
          · rcases h' with hlt' | ⟨rfl, -⟩
            · exact absurd hlt' (Nat.lt_asymm hlt)
            · exact absurd hlt (Nat.lt_irrefl _)
          · rcases h' with hlt | ⟨-, h'⟩
            · exact absurd hlt (Nat.lt_irrefl _)
            · rw [ih h h']

/-- The error of the first offence in reading order. -/
def IsFirst (P : Offences) (e : SyntaxError) : Prop :=
  ∃ place, P place e ∧ ∀ place' e', P place' e' → NotAfter place place'

/-- At most one error for each place. -/
def Offences.Definite (P : Offences) : Prop :=
  ∀ place e e', P place e → P place e' → e = e'

/-- There is only one first offence. -/
theorem IsFirst.unique {P : Offences} (hP : P.Definite) {e e' : SyntaxError} (h : IsFirst P e)
    (h' : IsFirst P e') : e = e' := by
  rcases h with ⟨place, hplace, hfirst⟩
  rcases h' with ⟨place', hplace', hfirst'⟩
  obtain rfl : place = place' := (hfirst _ _ hplace').antisymm (hfirst' _ _ hplace)
  exact hP place e e' hplace hplace'

section Lexemes

variable {body : Nat → List Char → Offences} {x : Lexeme} {xs : List Lexeme}

/-- The first lexeme moves the places of the later offences by one. -/
theorem offenceIn_succ_iff {i : Nat} {place : List Nat} {e : SyntaxError} :
    OffenceIn body (x :: xs) ((i + 1) :: place) e ↔ OffenceIn body xs (i :: place) e := by
  constructor <;>
  · rintro (⟨hx, hop, hnext⟩ | ⟨hx, hop, hnext, hy⟩ | ⟨hx, hraw, hj, h⟩)
    · exact .missing hx hop hnext
    · exact .misplaced hx hop hnext hy
    · exact .inside hx hraw hj h

/-- At each place there is at most one offence. -/
theorem OffenceIn.definite (hbody : ∀ column inner, (body column inner).Definite) :
    (OffenceIn body xs).Definite := by
  intro place e e' h h'
  -- A place of length one is that of an operator, and the lexeme behind it tells which error it is.
  cases h with
  | missing hx hop hnext =>
      cases h' with
      | missing hx' =>
          cases hx.symm.trans hx'
          rfl
      | misplaced _ _ hnext' => cases hnext.symm.trans hnext'
  | misplaced hx hop hnext hy =>
      cases h' with
      | missing _ _ hnext' => cases hnext.symm.trans hnext'
      | misplaced hx' _ hnext' =>
          cases hx.symm.trans hx'
          cases hnext.symm.trans hnext'
          rfl
  | inside hx hraw hj h =>
      cases h' with
      | inside hx' hraw' hj' h' =>
          cases hx.symm.trans hx'
          cases hraw.symm.trans hraw'
          cases hj.symm.trans hj'
          exact hbody _ _ _ _ _ h h'

/-- Lexemes are without offence if operators have their targets and no word has an offence in it. -/
theorem not_offenceIn_iff :
    (∀ place e, ¬ OffenceIn body xs place e) ↔
      TargetsFollow (xs.map Lexeme.token) ∧ ∀ x ∈ xs, ∀ raw, x.token = .word raw →
        ∀ inner, .body inner ∈ Segment.split raw.toList →
          ∀ place e, ¬ body x.start.column inner place e := by
  constructor
  · intro h
    refine ⟨?_, ?_⟩
    · -- An operator that is last, or before something else, would be an offence.
      intro i t ht hop
      rw [List.getElem?_map] at ht ⊢
      rcases Option.map_eq_some_iff.1 ht with ⟨x, hx, rfl⟩
      cases hnext : xs[i + 1]? with
      | none => exact absurd (.missing hx hop hnext) (h _ _)
      | some y =>
          cases hy : y.token with
          | word raw => exact ⟨raw, by rw [Option.map_some, hy]⟩
          | _ => exact absurd (.misplaced hx hop hnext (by simp [hy])) (h _ _)
    · intro x hx raw hraw inner hinner place e he
      rcases List.getElem?_of_mem hx with ⟨i, hi⟩
      rcases List.getElem?_of_mem hinner with ⟨j, hj⟩
      exact h _ _ (.inside hi hraw hj he)
  · rintro ⟨htargets, hwords⟩ place e h
    -- Behind every operator there is a word, so only bodies are left to offend.
    have htarget : ∀ {i x}, xs[i]? = some x → x.token.redirects? ≠ none →
        ∃ y raw, xs[i + 1]? = some y ∧ y.token = .word raw := by
      intro i x hx hop
      have htoken : (xs.map Lexeme.token)[i]? = some x.token := by
        rw [List.getElem?_map, hx, Option.map_some]
      rcases htargets i x.token htoken hop with ⟨raw, hraw⟩
      rw [List.getElem?_map] at hraw
      rcases Option.map_eq_some_iff.1 hraw with ⟨y, hy, hyraw⟩
      exact ⟨y, raw, hy, hyraw⟩
    cases h with
    | missing hx hop hnext =>
        rcases htarget hx hop with ⟨y, raw, hy, -⟩
        cases hnext.symm.trans hy
    | misplaced hx hop hnext hword =>
        rcases htarget hx hop with ⟨y, raw, hy, hraw⟩
        cases hnext.symm.trans hy
        exact hword raw hraw
    | inside hx hraw hj h =>
        exact hwords _ (List.mem_of_getElem? hx) _ hraw _ (List.mem_of_getElem? hj) _ _ h

end Lexemes

/-- At each place of a body there is at most one offence. -/
theorem definite_bodyOffence (n column : Nat) (inner : List Char) :
    (bodyOffence n column inner).Definite := by
  induction n generalizing column inner with
  | zero =>
      intro place e e' h h'
      exact h.2.trans h'.2.symm
  | succ n ih => exact OffenceIn.definite ih

/-- The grammar is the absence of offences. -/
theorem not_offence_iff {n : Nat} {cs : List Char} :
    (∀ place e, ¬ Offence n cs place e) ↔ GrammaticalWithin n cs := by
  have hmem : ∀ {cs inner x raw}, x ∈ lex cs → x.token = .word raw →
      .body inner ∈ Segment.split raw.toList → Inner cs inner := by
    intro cs inner x raw hx hraw hinner
    exact ⟨raw, List.mem_map.2 ⟨x, hx, hraw⟩, hinner⟩
  induction n generalizing cs with
  | zero =>
      rw [Offence, not_offenceIn_iff, grammaticalWithin_zero_iff]
      refine and_congr_right fun _ => ⟨?_, ?_⟩
      · rintro h inner ⟨raw, hraw, hinner⟩
        rcases List.mem_map.1 hraw with ⟨x, hx, hx'⟩
        exact h x hx raw hx' inner hinner [] _ ⟨rfl, rfl⟩
      · intro h x hx raw hraw inner hinner
        exact absurd (hmem hx hraw hinner) (h inner)
  | succ n ih =>
      rw [Offence, not_offenceIn_iff, grammaticalWithin_succ_iff]
      refine and_congr_right fun _ => ⟨?_, ?_⟩
      · rintro h inner ⟨raw, hraw, hinner⟩
        rcases List.mem_map.1 hraw with ⟨x, hx, hx'⟩
        exact ih.1 (h x hx raw hx' inner hinner)
      · intro h x hx raw hraw inner hinner
        exact ih.2 (h inner (hmem hx hraw hinner))

/-! ## Readings that find the first offence -/

/-- A reading fails with the first offence, and succeeds if there is none. -/
def Judges {α : Type} (P : Offences) : Except SyntaxError α → Prop
  | .ok _ => ∀ place e, ¬ P place e
  | .error e => IsFirst P e

namespace Judges

variable {α β : Type} {P : Offences} {r : Except SyntaxError α} {f : α → Except SyntaxError β}

theorem congr {Q : Offences} (h : Judges P r) (hPQ : ∀ place e, P place e ↔ Q place e) :
    Judges Q r := by
  have hPQ : P = Q := by
    funext place e
    exact propext (hPQ place e)
  exact hPQ ▸ h

/-- What is done with the result of a reading changes nothing. -/
theorem bind_ok {f : α → β} (h : Judges P r) : Judges P (r >>= fun a => .ok (f a)) := by
  cases r with
  | ok a => exact h
  | error e => exact h

/-- Offences at the head of a list come before those in its tail. -/
theorem cons {Q : Offences} (hnil : ∀ e, ¬ P [] e) (hhead : Judges (fun place => P (0 :: place)) r)
    (htail : ∀ a, Judges Q (f a)) (hQnil : ∀ e, ¬ Q [] e)
    (hsucc : ∀ i place e, P ((i + 1) :: place) e ↔ Q (i :: place) e) : Judges P (r >>= f) := by
  cases r with
  | error e =>
      -- The first offence at the head is the first of all.
      rcases hhead with ⟨place, hplace, hfirst⟩
      refine ⟨0 :: place, hplace, ?_⟩
      intro place' e' h'
      rcases place' with - | ⟨- | i, place'⟩
      · exact absurd h' (hnil e')
      · exact .inr ⟨rfl, hfirst place' e' h'⟩
      · exact .inl (Nat.succ_pos i)
  | ok a =>
      -- There is none at the head, and those in the tail keep their order one place further on.
      have htail := htail a
      change Judges P (f a)
      cases hfa : f a with
      | ok b =>
          rw [hfa] at htail
          intro place e h
          rcases place with - | ⟨- | i, place⟩
          · exact hnil e h
          · exact hhead place e h
          · exact htail (i :: place) e ((hsucc i place e).1 h)
      | error e =>
          rw [hfa] at htail
          rcases htail with ⟨place, hplace, hfirst⟩
          rcases place with - | ⟨i, place⟩
          · exact absurd hplace (hQnil e)
          refine ⟨(i + 1) :: place, (hsucc i place e).2 hplace, ?_⟩
          intro place' e' h'
          rcases place' with - | ⟨- | i', place'⟩
          · exact absurd h' (hnil e')
          · exact absurd h' (hhead place' e')
          · rcases hfirst _ _ ((hsucc i' place' e').1 h') with hlt | ⟨rfl, hrest⟩
            · exact .inl (Nat.succ_lt_succ hlt)
            · exact .inr ⟨rfl, hrest⟩

end Judges

/-- Offences in the segments of a word. -/
def segmentOffence (body : List Char → Offences) (segs : List Segment) : Offences :=
  fun place e =>
    ∃ j inner rest, place = j :: rest ∧ segs[j]? = some (.body inner) ∧ body inner rest e

section Reading

variable {sub : BodyReader} {body : Nat → List Char → Offences}

/-- A segment is read unless its body is refused. -/
theorem judges_toPart (hsub : ∀ column inner, Judges (body column inner) (sub column inner))
    (column : Nat) (seg : Segment) (segs : List Segment) :
    Judges (fun place => segmentOffence (body column) (seg :: segs) (0 :: place))
      (seg.toPart sub column) := by
  -- Only a body can offend.
  have hnone : (∀ inner, seg ≠ .body inner) → ∀ place e,
      ¬ segmentOffence (body column) (seg :: segs) (0 :: place) e := by
    rintro h place e ⟨j, inner, rest, hplace, hj, -⟩
    cases hplace
    exact h inner (Option.some.inj hj)
  cases seg with
  | text cs => exact hnone (by simp)
  | var name => exact hnone (by simp)
  | body inner =>
      have hmap : (sub column inner).map Part.substitution =
          sub column inner >>= fun p => .ok (.substitution p) := by
        cases sub column inner <;> rfl
      rw [Segment.toPart, hmap]
      refine ((hsub column inner).congr ?_).bind_ok
      intro place e
      constructor
      · intro h
        exact ⟨0, inner, place, rfl, rfl, h⟩
      · rintro ⟨j, inner', rest, hplace, hj, h⟩
        cases hplace
        cases hj
        exact h

/-- Segments are read unless the first one that offends is refused. -/
theorem judges_mapM_toPart (hsub : ∀ column inner, Judges (body column inner) (sub column inner))
    (column : Nat) (segs : List Segment) :
    Judges (segmentOffence (body column) segs) (segs.mapM (Segment.toPart sub column)) := by
  induction segs with
  | nil =>
      rintro place e ⟨j, inner, rest, -, hj, -⟩
      cases hj
  | cons seg segs ih =>
      rw [List.mapM_cons]
      have hnil : ∀ segs e, ¬ segmentOffence (body column) segs [] e := by
        rintro segs e ⟨j, inner, rest, hplace, -⟩
        cases hplace
      -- The place of an offence is counted among the segments, so behind the first one it is one
      -- less.
      refine Judges.cons (hnil _) (judges_toPart hsub column seg segs) (fun part => ih.bind_ok)
        (hnil _) ?_
      intro i place e
      constructor
      · rintro ⟨j, inner, rest, hplace, hj, h⟩
        cases hplace
        exact ⟨i, inner, place, rfl, hj, h⟩
      · rintro ⟨j, inner, rest, hplace, hj, h⟩
        cases hplace
        exact ⟨i + 1, inner, place, rfl, hj, h⟩

/-- No offence is without a place. -/
theorem not_offenceIn_nil {xs : List Lexeme} (e : SyntaxError) : ¬ OffenceIn body xs [] e := by
  intro h
  cases h

section Head

variable {α : Type} {x : Lexeme} {xs : List Lexeme}

theorem redirects?_eq_none_of_word {t : Token} {raw : String} (h : t = .word raw) :
    t.redirects? = none := by
  rw [h]
  rfl

/-- A word at the head offends where its segments do. -/
theorem offenceIn_word_iff {raw : String} (hraw : x.token = .word raw) {place : List Nat}
    {e : SyntaxError} :
    OffenceIn body (x :: xs) (0 :: place) e ↔
      segmentOffence (body x.start.column) (Segment.split raw.toList) place e := by
  constructor
  · intro h
    cases h with
    | missing hx hop =>
        cases hx
        exact absurd (redirects?_eq_none_of_word hraw) hop
    | misplaced hx hop =>
        cases hx
        exact absurd (redirects?_eq_none_of_word hraw) hop
    | inside hx hraw' hj h =>
        cases hx
        cases hraw.symm.trans hraw'
        exact ⟨_, _, _, rfl, hj, h⟩
  · rintro ⟨j, inner, rest, rfl, hj, h⟩
    exact .inside rfl hraw hj h

/-- A word is read, and what follows it only then. -/
theorem judges_word (hsub : ∀ column inner, Judges (body column inner) (sub column inner))
    {raw : String} (hraw : x.token = .word raw) {f : Word → Except SyntaxError α}
    (hf : ∀ w, Judges (OffenceIn body xs) (f w)) :
    Judges (OffenceIn body (x :: xs)) (readParts sub x.start.column raw >>= f) := by
  have hhead : Judges (fun place => OffenceIn body (x :: xs) (0 :: place))
      (readParts sub x.start.column raw) :=
    (judges_mapM_toPart hsub _ _).congr fun place e => (offenceIn_word_iff hraw).symm
  exact Judges.cons not_offenceIn_nil hhead hf not_offenceIn_nil fun _ _ _ => offenceIn_succ_iff

/-- A bar, and an operator in front of its target, are passed over. -/
theorem judges_operator (hword : ∀ raw, x.token ≠ .word raw)
    (hnext : x.token.redirects? = none ∨ ∃ y raw, xs[0]? = some y ∧ y.token = .word raw)
    {r : Except SyntaxError α} (hr : Judges (OffenceIn body xs) r) :
    Judges (OffenceIn body (x :: xs)) r := by
  have hhead : ∀ place e, ¬ OffenceIn body (x :: xs) (0 :: place) e := by
    intro place e h
    rcases hnext with hnone | ⟨y, raw, hy, hraw⟩
    · cases h with
      | missing hx hop => cases hx; exact hop hnone
      | misplaced hx hop => cases hx; exact hop hnone
      | inside hx hraw => cases hx; exact hword _ hraw
    · cases h with
      | missing _ _ hnone => cases hnone.symm.trans hy
      | misplaced _ _ hsome hno => cases hsome.symm.trans hy; exact hno raw hraw
      | inside hx hraw => cases hx; exact hword _ hraw
  exact Judges.cons (r := .ok ()) not_offenceIn_nil hhead (fun _ => hr) not_offenceIn_nil
    fun _ _ _ => offenceIn_succ_iff

/-- Nothing comes before an operator at the head. -/
theorem isFirst_head {e : SyntaxError} (h : OffenceIn body (x :: xs) [0] e) :
    IsFirst (OffenceIn body (x :: xs)) e := by
  refine ⟨[0], h, ?_⟩
  intro place e' h'
  rcases place with - | ⟨- | i, place⟩
  · exact absurd h' (not_offenceIn_nil e')
  · exact .inr ⟨rfl, trivial⟩
  · exact .inl (Nat.succ_pos i)

end Head

/-- A line is read unless its first offence is reported, whatever the draft so far. -/
theorem Draft.judges_read (hsub : ∀ column inner, Judges (body column inner) (sub column inner))
    (d : Draft) (xs : List Lexeme) : Judges (OffenceIn body xs) (d.read sub xs) := by
  fun_induction Draft.read sub d xs with
  | case1 d =>
      intro place e h
      cases h with
      | missing hx => cases hx
      | misplaced hx => cases hx
      | inside hx => cases hx
  | case2 d x xs raw hraw ih => exact judges_word hsub hraw ih
  | case3 d x role append hop =>
      -- Here and in `case5` the parser gives up at the head, before it looks at any word.
      exact isFirst_head (.missing rfl (by simp [hop]) rfl)
  | case4 d x role append hop target xs raw hraw hword ih =>
      exact judges_operator hword (.inr ⟨target, raw, rfl, hraw⟩) (judges_word hsub hraw ih)
  | case5 d x role append hop found xs hword hfound =>
      exact isFirst_head (.misplaced rfl (by simp [hop]) rfl hfound)
  | case6 d x xs hop hword ih => exact judges_operator hword (.inl hop) ih.bind_ok

end Reading

/-- The parser finds the first offence. -/
theorem judges_parseWithin (n : Nat) (cs : List Char) :
    Judges (Offence n cs) (parseWithin n cs) := by
  induction n generalizing cs with
  | zero =>
      -- No level is left, so that a substitution is an offence as a whole.
      refine Draft.judges_read ?_ _ _
      intro column inner
      refine ⟨[], ⟨rfl, rfl⟩, ?_⟩
      intro place e h
      trivial
  | succ n ih => exact Draft.judges_read (fun _ inner => ih inner) _ _

/-- Within a limit, a line is accepted if it is grammatical, and grouped as its tokens say. -/
theorem parseWithin_eq_ok_iff {n : Nat} {cs : List Char} {p : Pipeline} :
    parseWithin n cs = .ok p ↔ GrammaticalWithin n cs ∧ p = groupedWithin n cs := by
  have hjudges := judges_parseWithin n cs
  cases hresult : parseWithin n cs with
  | ok q =>
      rw [hresult] at hjudges
      have hq := parseWithin_eq_grouped hresult
      rw [Except.ok.injEq]
      constructor
      · rintro rfl
        exact ⟨not_offence_iff.1 hjudges, hq⟩
      · rintro ⟨-, rfl⟩
        exact hq
  | error e =>
      rw [hresult] at hjudges
      refine ⟨nofun, ?_⟩
      rintro ⟨hgrammatical, -⟩
      rcases hjudges with ⟨place, h, -⟩
      exact absurd h (not_offence_iff.2 hgrammatical place e)

/-- Within a limit, what is reported is the first offence. -/
theorem parseWithin_eq_error_iff {n : Nat} {cs : List Char} {e : SyntaxError} :
    parseWithin n cs = .error e ↔ IsFirst (Offence n cs) e := by
  have hjudges := judges_parseWithin n cs
  cases hresult : parseWithin n cs with
  | ok q =>
      rw [hresult] at hjudges
      refine ⟨nofun, ?_⟩
      rintro ⟨place, h, -⟩
      exact absurd h (hjudges place e)
  | error e' =>
      rw [hresult] at hjudges
      rw [Except.error.injEq]
      constructor
      · rintro rfl
        exact hjudges
      · exact hjudges.unique (OffenceIn.definite (definite_bodyOffence n))

/-- The parser accepts its grammar and nothing else. An accepted line is read as its tokens split at
the bars, with every operator paired with the word behind it and the last redirection of each stream
kept. Any other line is refused with its first offence in reading order. -/
theorem parse_accepts_grammar (line : String) :
    (∀ p, Pipeline.parse line = .ok p ↔
      GrammaticalWithin maxNesting line.toList ∧ p = groupedWithin maxNesting line.toList) ∧
    ∀ e, Pipeline.parse line = .error e ↔ IsFirst (Offence maxNesting line.toList) e :=
  ⟨fun _ => parseWithin_eq_ok_iff, fun _ => parseWithin_eq_error_iff⟩

/-- Both operators in `ls $(cat > | wc) <` lack a target, and the one in the substitution comes
first. Its column is counted in the text of the substitution. -/
theorem nested_offence_comes_first :
    Pipeline.parse "ls $(cat > | wc) <" = .error ⟨.misplacedToken (.output false) .pipe, 5⟩ ∧
      IsFirst (Offence maxNesting "ls $(cat > | wc) <".toList)
        ⟨.misplacedToken (.output false) .pipe, 5⟩ := by
  have hparse : Pipeline.parse "ls $(cat > | wc) <" =
      .error ⟨.misplacedToken (.output false) .pipe, 5⟩ := by
    with_unfolding_all rfl
  exact ⟨hparse, ((parse_accepts_grammar _).2 _).1 hparse⟩

end LineShell
