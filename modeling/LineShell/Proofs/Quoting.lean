import LineShell.Proofs.Nesting
import LineShell.Proofs.Reading

/-!
# Quoting — what a quoted word means

A word may be written as a mix of pieces: plain characters, single and double quotes, backslashes,
variables in braces and substitutions. The lexer removes the quotes and marks protected dollar
signs; the reader of parts looks for expansions in what is left. This file shows that the two
together give every mix its meaning.

* `Piece` — a piece of a word, carrying the proof that it is well formed; `Piece.written` is its
  spelling, `Piece.denote` its meaning;
* `Piece.reads` — what the lexer makes of a piece (`Piece.raw`), whatever follows it;
* `Denotes` — what the reader of parts makes of a text, whatever follows it;
* `quoted_word_has_its_meaning` — both together, for any sequence of pieces.
-/

namespace LineShell

open Reading

/-! ## Characters and expansions under quotes -/

/-- Under the quotes `q` this character stands for itself and ends no word. -/
def PlainUnder (q : Quote) (c : Char) : Prop :=
  Inert q c ∧ (q = .bare → isBlank c = false ∧ c ≠ '<' ∧ c ≠ '|' ∧ c ≠ '>')

def isOrdinary (c : Char) : Bool :=
  !(isBlank c || c == '\'' || c == '"' || c == '\\' || c == '$' || c == '|' || c == '<' || c == '>')

/-- An ordinary character is plain under all quotes. -/
theorem plainUnder_of_isOrdinary {q : Quote} {c : Char} (h : isOrdinary c = true) :
    PlainUnder q c := by
  simp only [isOrdinary, Bool.not_eq_true', Bool.or_eq_false_iff, beq_eq_false_iff_ne] at h
  rcases h with ⟨⟨⟨⟨⟨⟨⟨hblank, hsingle⟩, hdouble⟩, hslash⟩, hdollar⟩, hbar⟩, hin⟩, hout⟩
  have htoggle : q.toggle c = q := by
    cases q <;> simp [Quote.toggle, hsingle, hdouble]
  exact ⟨⟨fun hc => absurd hc hslash, htoggle, hdollar⟩, fun _ => ⟨hblank, hin, hbar, hout⟩⟩

/-- Characters of names are ordinary. -/
theorem isOrdinary_of_isNameRest {c : Char} (h : isNameRest c = true) : isOrdinary c = true := by
  have hne (d : Char) (hd : isNameRest d = false) : c ≠ d := by
    rintro rfl
    simp [hd] at h
  simp [isOrdinary, isBlank, hne ' ' (by decide), hne '\t' (by decide), hne '\'' (by decide),
    hne '"' (by decide), hne '\\' (by decide), hne '$' (by decide), hne '|' (by decide),
    hne '<' (by decide), hne '>' (by decide)]

/-- A plain character outside quotes ends no word, unless a sign is ahead. -/
theorem not_endsWord_of_plain {c : Char} {rest : List Char} (h : PlainUnder .bare c)
    (hrest : ¬ SignAhead rest) : endsWord (c :: rest) = false := by
  rcases h.2 rfl with ⟨hblank, hin, hbar, hout⟩
  have hiff := @endsWord_cons_iff c rest
  rw [signAhead_cons] at hiff
  simpa [hblank, hin, hbar, hout, hrest] using hiff

namespace Reading

/-- A plain character right behind a text, with or without a dollar sign before it. -/
theorem Reads.plain_char {q : Quote} {dollar : Bool} {c : Char} {rest : List Char}
    (h : PlainUnder q c) (hparen : dollar = true → c ≠ '(')
    (hrest : q = .bare → ¬ SignAhead rest) :
    Reads (.text q dollar) [c] [c] (.text q false) rest := by
  have hend : ((Reading.text q dollar).mayEnd && endsWord ([c] ++ rest)) = false := by
    by_cases hq : q = .bare
    · subst hq
      simp [not_endsWord_of_plain h (hrest rfl)]
    · simp [mayEnd_text_of_ne hq]
  have hread : Reads (.text q dollar) [c] ([c] ++ []) (.text q false) rest :=
    .cons hend (step_inert h.1 hparen) .nil
  simpa using hread

/-- A run of plain characters is copied. -/
theorem Reads.plain {q : Quote} {cs rest : List Char} (h : ∀ c ∈ cs, PlainUnder q c)
    (hrest : q = .bare → ¬ SignAhead rest) :
    Reads (.text q false) cs cs (.text q false) rest := by
  induction cs with
  | nil => exact .nil
  | cons c cs ih =>
      have htail : Reads (.text q false) cs cs (.text q false) rest :=
        ih fun d hd => h d (List.mem_cons_of_mem _ hd)
      -- The characters behind `c` may be digits, but no output operator follows them.
      have hahead : q = .bare → ¬ SignAhead (cs ++ rest) := by
        intro hq
        refine not_signAhead_append ?_ (hrest hq)
        intro hmem
        exact ((h '>' (List.mem_cons_of_mem _ hmem)).2 hq).2.2.2 rfl
      have hhead : Reads (.text q false) [c] [c] (.text q false) (cs ++ rest) :=
        .plain_char (h c (List.mem_cons_self ..)) (by simp) hahead
      exact hhead.append htail

/-- A dollar sign that no quote protects. -/
theorem Reads.dollar {q : Quote} {rest : List Char} (hq : q ≠ .single) :
    Reads (.text q false) ['$'] ['$'] (.text q true) rest := by
  have hend : endsWord ('$' :: rest) = false :=
    endsWord_eq_false_of_char (by decide) (by decide) (by decide) rest
  have hread : Reads (.text q false) ['$'] (['$'] ++ []) (.text q true) rest :=
    .cons (by simp [hend]) (step_dollar hq) .nil
  simpa using hread

/-- A backslash that escapes the character behind it. -/
theorem Reads.escape {q : Quote} {c : Char} {rest : List Char} (hq : q ≠ .single)
    (hc : q = .double → isEscapable c = true) :
    Reads (.text q false) ['\\', c] [protect c] (.text q false) rest := by
  have hend : endsWord ('\\' :: ([c] ++ rest)) = false :=
    endsWord_eq_false_of_char (by decide) (by decide) (by decide) _
  have hopen : (Reading.text q false).step '\\' = (.escape q, []) := by
    simp [step, hq]
  have hclose : (Reading.escape q).step c = (.text q false, [protect c]) := by
    have hnot : ¬ (q = .double ∧ ¬ isEscapable c = true) := fun h => h.2 (hc h.1)
    simp only [step, if_neg hnot]
  have hread : Reads (.text q false) ['\\', c] ([] ++ [protect c]) (.text q false) rest :=
    .cons (by simpa using fun _ => hend) hopen (.inside rfl hclose)
  simpa using hread

end Reading

/-! ## Expansions -/

/-- The value of a variable or the output of a line, written into a word. The line of a
substitution is found whole by the scanner, and the reader `sub` can read it. -/
inductive Expansion (sub : BodyReader) where
  | var (name : List Char) (valid : isName name = true)
  | substitution (line : List Char) (stages : Pipeline)
      (whole : substitutionBody (line ++ [')']) = (line, []))
      (reads : ∀ column, sub column line = .ok stages)

namespace Expansion

variable {sub : BodyReader}

/-- An expansion as it is written, in quotes or outside. -/
def written : Expansion sub → List Char
  | .var name _ => '$' :: '{' :: name ++ ['}']
  | .substitution line _ _ _ => '$' :: '(' :: line ++ [')']

def denote : Expansion sub → Part
  | .var name _ => .var (String.ofList name)
  | .substitution _ stages _ _ => .substitution stages

/-- The characters of a variable in braces are ordinary. -/
theorem isOrdinary_of_mem_braces {name : List Char} (hname : isName name = true) {c : Char}
    (hc : c ∈ '{' :: name ++ ['}']) : isOrdinary c = true := by
  simp only [List.cons_append, List.mem_cons, List.mem_append, List.not_mem_nil, or_false] at hc
  rcases hc with rfl | hmem | rfl
  · decide
  · exact isOrdinary_of_isNameRest (isNameRest_of_mem hname hmem)
  · decide

/-- The lexer copies an expansion as it stands. -/
theorem reads (e : Expansion sub) {q : Quote} (hq : q ≠ .single) {rest : List Char}
    (hrest : q = .bare → ¬ SignAhead rest) :
    Reads (.text q false) e.written e.written (.text q false) rest := by
  cases e with
  | var name hname =>
      have hplain : ∀ c ∈ '{' :: name ++ ['}'], PlainUnder q c :=
        fun c hc => plainUnder_of_isOrdinary (isOrdinary_of_mem_braces hname hc)
      have hopen : Reads (.text q true) ['{'] ['{'] (.text q false) (name ++ ['}'] ++ rest) := by
        refine .plain_char (hplain '{' (by simp)) (by simp) ?_
        intro hbare
        refine not_signAhead_append ?_ (hrest hbare)
        intro hmem
        exact ((hplain '>' (List.mem_cons_of_mem _ hmem)).2 hbare).2.2.2 rfl
      have hname : Reads (.text q false) (name ++ ['}']) (name ++ ['}']) (.text q false) rest :=
        .plain (fun c hc => hplain c (List.mem_cons_of_mem _ hc)) hrest
      exact (Reads.dollar hq).append (hopen.append hname)
  | substitution line stages whole _ =>
      -- Behind `$(` the scanner decides what belongs to the word.
      have hline : Body.opened.split? (line ++ [')']) = some (line, []) :=
        Body.split?_eq_self_iff_balanced.2 (substitutionBody_eq_iff.1 whole)
      have hopen : Reads (.text q true) ['('] ['('] (.body .opened q) (line ++ [')'] ++ rest) := by
        have hend : endsWord ('(' :: (line ++ [')'] ++ rest)) = false :=
          endsWord_eq_false_of_char (by decide) (by decide) (by decide) _
        have hread : Reads (.text q true) ['('] (['('] ++ []) (.body .opened q)
            (line ++ [')'] ++ rest) := .cons (by simpa using fun _ => hend) step_substitution .nil
        simpa using hread
      exact (Reads.dollar hq).append (hopen.append (.body hline))

end Expansion

/-! ## Pieces -/

/-- An item of a double-quoted string. -/
inductive Item (sub : BodyReader) where
  | literal (c : Char) (unmarked : c ≠ protectedDollar)
  | expansion (e : Expansion sub)

/-- A piece of a word. -/
inductive Piece (sub : BodyReader) where
  /-- Ordinary characters outside quotes. -/
  | plain (cs : List Char) (ordinary : ∀ c ∈ cs, isOrdinary c = true)
      (unmarked : protectedDollar ∉ cs)
  /-- Anything but a single quote, in single quotes. -/
  | single (cs : List Char) (unquoted : '\'' ∉ cs) (unmarked : protectedDollar ∉ cs)
  /-- Characters and expansions in double quotes. -/
  | double (items : List (Item sub))
  /-- Any character behind a backslash. -/
  | escaped (c : Char) (unmarked : c ≠ protectedDollar)
  /-- An expansion outside quotes. -/
  | expansion (e : Expansion sub)

section Spelling

variable {sub : BodyReader}

/-- A character in double quotes: those that have a meaning there stand behind a backslash. -/
def inDoubleQuotes (c : Char) : List Char :=
  if isEscapable c then ['\\', c] else [c]

def Item.written : Item sub → List Char
  | .literal c _ => inDoubleQuotes c
  | .expansion e => e.written

def Item.denote : Item sub → Part
  | .literal c _ => .text (String.singleton c)
  | .expansion e => e.denote

/-- What the lexer leaves of an item. -/
def Item.raw : Item sub → List Char
  | .literal c _ => [protect c]
  | .expansion e => e.written

namespace Piece

/-- A piece as it is written in a line. -/
def written : Piece sub → List Char
  | .plain cs _ _ => cs
  | .single cs _ _ => '\'' :: cs ++ ['\'']
  | .double items => '"' :: items.flatMap Item.written ++ ['"']
  | .escaped c _ => ['\\', c]
  | .expansion e => e.written

/-- The parts that a piece stands for. -/
def denote : Piece sub → List Part
  | .plain cs _ _ => [.text (String.ofList cs)]
  | .single cs _ _ => [.text (String.ofList cs)]
  | .double items => items.map Item.denote
  | .escaped c _ => [.text (String.singleton c)]
  | .expansion e => [e.denote]

/-- What the lexer leaves of a piece: no quotes, and marks in place of protected dollar signs. -/
def raw : Piece sub → List Char
  | .plain cs _ _ => cs
  | .single cs _ _ => cs.map protect
  | .double items => items.flatMap Item.raw
  | .escaped c _ => [protect c]
  | .expansion e => e.written

end Piece

def meaning (ps : List (Piece sub)) : Word :=
  Word.merge (ps.flatMap Piece.denote)

end Spelling

/-! ## What the lexer makes of a piece -/

section Lexing

variable {sub : BodyReader}

/-- Each item between double quotes is read as what it stands for. -/
theorem Item.reads (item : Item sub) {rest : List Char} :
    Reads (.text .double false) item.written item.raw (.text .double false) rest := by
  cases item with
  | literal c _ =>
      simp only [Item.written, Item.raw, inDoubleQuotes]
      by_cases hc : isEscapable c = true
      · simpa [hc] using Reads.escape (by decide) (fun _ => hc)
      · -- Whatever needs no backslash in double quotes is plain there.
        have hslash : c ≠ '\\' := by
          rintro rfl
          exact hc (by decide)
        have hquote : c ≠ '"' := by
          rintro rfl
          exact hc (by decide)
        have hdollar : c ≠ '$' := by
          rintro rfl
          exact hc (by decide)
        have hplain : PlainUnder .double c := by
          refine ⟨⟨fun h => absurd h hslash, ?_, hdollar⟩, fun h => ?_⟩
          · simp [Quote.toggle, hquote]
          · cases h
        simpa [hc, protect, hdollar] using Reads.plain_char hplain (by simp) (by simp)
  | expansion e => exact e.reads (by decide) (by simp)

/-- Items between double quotes are read one by one. -/
theorem Item.reads_all (items : List (Item sub)) {rest : List Char} :
    Reads (.text .double false) (items.flatMap Item.written) (items.flatMap Item.raw)
      (.text .double false) rest := by
  induction items with
  | nil => exact .nil
  | cons item items ih => exact (Item.reads item).append ih

/-- In single quotes every character is taken as it is, a dollar sign with its mark. -/
theorem Reading.Reads.single {cs rest : List Char} (h : '\'' ∉ cs) :
    Reads (.text .single false) cs (cs.map protect) (.text .single false) rest := by
  induction cs with
  | nil => exact .nil
  | cons c cs ih =>
      simp only [List.mem_cons, not_or] at h
      have hstep : (Reading.text .single false).step c = (.text .single false, [protect c]) := by
        have htoggle : Quote.single.toggle c = .single := by
          simp [Quote.toggle, Ne.symm h.1]
        by_cases hd : c = '$'
        · subst hd
          simp [step, htoggle, protect]
        · simp [step, htoggle, hd, protect]
      exact .cons_inside rfl hstep (ih h.2)

/-- A quote character outside quotes opens its quotes; the same character closes them again. -/
theorem Reading.Reads.quoted {q : Quote} {c : Char} {w out rest : List Char}
    (hopen : (Reading.text .bare false).step c = (.text q false, []))
    (hend : endsWord (c :: (w ++ [c] ++ rest)) = false)
    (hclose : (Reading.text q false).step c = (.text .bare false, [])) (hq : q ≠ .bare)
    (h : Reads (.text q false) w out (.text q false) ([c] ++ rest)) :
    Reads (.text .bare false) (c :: w ++ [c]) out (.text .bare false) rest := by
  have hlast : Reads (.text q false) [c] [] (.text .bare false) rest :=
    .inside (mayEnd_text_of_ne hq) hclose
  have hread : Reads (.text .bare false) (c :: (w ++ [c])) ([] ++ (out ++ []))
      (.text .bare false) rest := .cons (by simpa using fun _ => hend) hopen (h.append hlast)
  simpa using hread

namespace Piece

/-- Each piece is read as what it stands for, and its quotes are closed. -/
theorem reads (p : Piece sub) {rest : List Char} (hrest : ¬ SignAhead rest) :
    Reads .fresh p.written p.raw .fresh rest := by
  cases p with
  | plain cs hcs _ =>
      exact .plain (fun c hc => plainUnder_of_isOrdinary (hcs c hc)) (fun _ => hrest)
  | single cs hcs _ =>
      exact .quoted (by decide)
        (endsWord_eq_false_of_char (by decide) (by decide) (by decide) _) (by decide) (by decide)
        (.single hcs)
  | double items =>
      exact .quoted (by decide)
        (endsWord_eq_false_of_char (by decide) (by decide) (by decide) _) (by decide) (by decide)
        (Item.reads_all items)
  | escaped c _ => exact .escape (by decide) (by simp)
  | expansion e => exact e.reads (by decide) (fun _ => hrest)

/-- A piece does not begin with an output operator, so no digits before it can belong to one. -/
theorem not_signAhead (p : Piece sub) {rest : List Char} (hrest : ¬ SignAhead rest) :
    ¬ SignAhead (p.written ++ rest) := by
  cases p with
  | plain cs hcs _ =>
      refine not_signAhead_append ?_ hrest
      intro hmem
      exact absurd (hcs '>' hmem) (by decide)
  | single cs _ _ => simp [written, signAhead_cons]
  | double items => simp [written, signAhead_cons]
  | escaped c _ => simp [written, signAhead_cons]
  | expansion e =>
      cases e with
      | var name _ => simp [written, Expansion.written, signAhead_cons]
      | substitution line stages _ _ => simp [written, Expansion.written, signAhead_cons]

/-- Pieces do not start an output sign, unless one follows them. -/
theorem not_signAhead_all (ps : List (Piece sub)) {rest : List Char}
    (hrest : ¬ SignAhead rest) : ¬ SignAhead (ps.flatMap written ++ rest) := by
  induction ps with
  | nil => exact hrest
  | cons p ps ih =>
      rw [List.flatMap_cons, List.append_assoc]
      exact p.not_signAhead ih

/-- The lexer reads a sequence of pieces as one word. -/
theorem reads_all (ps : List (Piece sub)) {rest : List Char} (hrest : ¬ SignAhead rest) :
    Reads .fresh (ps.flatMap written) (ps.flatMap raw) .fresh rest := by
  induction ps with
  | nil => exact .nil
  | cons p ps ih => exact (p.reads (not_signAhead_all ps hrest)).append ih

end Piece

end Lexing

/-! ## What the reader of parts makes of a text -/

/-- Whatever follows it, this text is read as these parts. -/
def Denotes (sub : BodyReader) (column : Nat) (raw : List Char) (ps : List Part) : Prop :=
  ∀ rest, readParts sub column (String.ofList (raw ++ rest)) =
    (readParts sub column (String.ofList rest)).map fun w => ps.foldr Word.attach w

namespace Denotes

variable {sub : BodyReader} {column : Nat}

theorem nil : Denotes sub column [] [] := by
  intro rest
  cases h : readParts sub column (String.ofList rest) with
  | error e => simp [h, Except.map]
  | ok w => simp [h, Except.map]

/-- What denotes parts and what denotes other parts denote them in turn. -/
theorem append {raw₁ raw₂ : List Char} {ps₁ ps₂ : List Part} (h₁ : Denotes sub column raw₁ ps₁)
    (h₂ : Denotes sub column raw₂ ps₂) : Denotes sub column (raw₁ ++ raw₂) (ps₁ ++ ps₂) := by
  intro rest
  rw [List.append_assoc, h₁, h₂, map_map_except]
  congr 1
  funext w
  simp

theorem flatMap {α : Type} {f : α → List Char} {g : α → List Part}
    (h : ∀ a, Denotes sub column (f a) (g a)) (l : List α) :
    Denotes sub column (l.flatMap f) (l.flatMap g) := by
  induction l with
  | nil => exact nil
  | cons a l ih => exact (h a).append ih

/-- Text without a dollar sign denotes itself, with the protection taken off. -/
theorem literals {cs : List Char} (hcs : '$' ∉ cs) :
    Denotes sub column cs [.text (String.ofList (cs.map unprotect))] := by
  intro rest
  rw [readParts_eq_merge, readParts_eq_merge, String.toList_ofList, String.toList_ofList,
    chunks_literals hcs, merge_mapM_literals]
  rfl

/-- A single chunk denotes its part. -/
theorem of_chunk {raw : List Char} {k : Chunk} {p : Part}
    (hk : ∀ rest, chunks (raw ++ rest) = k :: chunks rest) (hp : k.toPart sub column = .ok p) :
    Denotes sub column raw [p] := by
  intro rest
  rw [readParts_eq_merge, readParts_eq_merge, String.toList_ofList, String.toList_ofList, hk,
    merge_mapM_cons hp]
  rfl

/-- A text with a meaning of its own is read as that meaning. -/
theorem readParts_eq {raw : List Char} {ps : List Part} (h : Denotes sub column raw ps) :
    readParts sub column (String.ofList raw) = .ok (Word.merge ps) := by
  have hraw := h []
  rw [List.append_nil] at hraw
  rw [hraw, readParts_eq_merge]
  simp [chunks, Except.map, pure, Except.pure, Word.merge]

end Denotes

/-- Protecting a text and taking the protection off gives the text back. -/
theorem map_unprotect_protect {cs : List Char} (h : protectedDollar ∉ cs) :
    (cs.map protect).map unprotect = cs := by
  have hid : ∀ c ∈ cs, (unprotect ∘ protect) c = id c := by
    intro c hc
    exact unprotect_protect (fun hnul => h (hnul ▸ hc))
  rw [List.map_map, List.map_congr_left hid, List.map_id]

section Meaning

variable {sub : BodyReader} {column : Nat}

/-- A reference or substitution denotes its part. -/
theorem Expansion.denotes (e : Expansion sub) : Denotes sub column e.written [e.denote] := by
  cases e with
  | var name hname =>
      refine .of_chunk (k := .braced name) ?_ rfl
      intro rest
      simpa [Expansion.written] using chunks_braced hname rest
  | substitution line stages whole hread =>
      refine .of_chunk (k := .substitution line true) ?_ ?_
      · intro rest
        simpa [Expansion.written] using
          chunks_substitution (substitutionBody_eq_iff.1 whole) rest
      · simp [Chunk.toPart, hread, Except.map, Expansion.denote]

/-- A protected character denotes itself. -/
theorem denotes_protected {c : Char} (h : c ≠ protectedDollar) :
    Denotes sub column [protect c] [.text (String.singleton c)] := by
  have hlit : Denotes sub column [protect c] [.text (String.ofList [unprotect (protect c)])] :=
    .literals (by simpa using (protect_ne_dollar c).symm)
  rw [unprotect_protect h] at hlit
  exact hlit

/-- An item denotes its part. -/
theorem Item.denotes (item : Item sub) : Denotes sub column item.raw [item.denote] := by
  cases item with
  | literal c hc => exact denotes_protected hc
  | expansion e => exact e.denotes

/-- A piece denotes its parts. -/
theorem Piece.denotes (p : Piece sub) : Denotes sub column p.raw p.denote := by
  cases p with
  | plain cs hcs hnul =>
      -- There is no dollar sign to expand and no mark to undo.
      have hdollar : '$' ∉ cs := fun hmem => absurd (hcs '$' hmem) (by decide)
      have hsame : cs.map unprotect = cs := by
        have hid : ∀ c ∈ cs, unprotect c = id c := by
          intro c hc
          have hne : c ≠ protectedDollar := fun h => hnul (h ▸ hc)
          simp [unprotect, hne]
        rw [List.map_congr_left hid, List.map_id]
      have hlit := @Denotes.literals sub column _ hdollar
      rwa [hsame] at hlit
  | single cs _ hnul =>
      -- All dollar signs are marked, and undoing the marks gives the text back.
      have hdollar : '$' ∉ cs.map protect := by
        intro hmem
        rcases List.mem_map.1 hmem with ⟨c, -, hc⟩
        exact protect_ne_dollar c hc
      have hlit := @Denotes.literals sub column _ hdollar
      rwa [map_unprotect_protect hnul] at hlit
  | double items =>
      have hall := Denotes.flatMap (fun item : Item sub => @Item.denotes sub column item) items
      have hdenote : (items.flatMap fun item => [item.denote]) = items.map Item.denote :=
        (List.map_eq_flatMap ..).symm
      rwa [hdenote] at hall
  | escaped c hc => exact denotes_protected hc
  | expansion e => exact e.denotes

end Meaning

/-! ## Words -/

section Words

variable {sub : BodyReader}

/-- A sequence of pieces is read as the word it means. -/
theorem readParts_pieces {column : Nat} (ps : List (Piece sub)) :
    readParts sub column (String.ofList (ps.flatMap Piece.raw)) = .ok (meaning ps) :=
  Denotes.readParts_eq (.flatMap (fun p => p.denotes) ps)

/-- A sequence of pieces that means something leaves some text. -/
theorem raw_ne_nil_of_meaning_ne_nil {ps : List (Piece sub)} (h : meaning ps ≠ []) :
    ps.flatMap Piece.raw ≠ [] := by
  intro hraw
  -- An empty text is read as the empty word, whatever the column.
  have hread := @readParts_pieces sub 1 ps
  rw [hraw, readParts_eq_merge] at hread
  simp only [String.toList_ofList, chunks, Except.map, List.mapM_nil, pure, Except.pure,
    Except.ok.injEq] at hread
  exact h hread.symm

/-- The end of a line, or a blank. -/
def Separated (rest : List Char) : Prop :=
  rest = [] ∨ ∃ tail, rest = ' ' :: tail

/-- Separated text starts no output sign. -/
theorem Separated.not_signAhead {rest : List Char} (h : Separated rest) : ¬ SignAhead rest := by
  rcases h with rfl | ⟨tail, rfl⟩
  · exact not_signAhead_nil
  · simp [signAhead_cons]

/-- A sequence of pieces in front of a blank is one lexeme. -/
theorem lexFrom_pieces {pos : Position} {ps : List (Piece sub)} {rest : List Char}
    (h : meaning ps ≠ []) (hrest : Separated rest) :
    lexFrom pos (ps.flatMap Piece.written ++ rest) =
      ⟨.word (String.ofList (ps.flatMap Piece.raw)), pos, pos.past (ps.flatMap Piece.written)⟩ ::
        lexFrom (pos.past (ps.flatMap Piece.written)) rest := by
  have hstop : Reading.fresh.Stops rest := by
    rcases hrest with rfl | ⟨tail, rfl⟩
    · exact .inl rfl
    · exact .inr ⟨rfl, by simp [endsWord, isBlank]⟩
  exact lexFrom_word (raw_ne_nil_of_meaning_ne_nil h) (Piece.reads_all ps hrest.not_signAhead) hstop

/-- The parser adds the meaning of a sequence of pieces to the command it is building. -/
theorem read_pieces {pos : Position} {d : Draft} {ps : List (Piece sub)} {rest : List Char}
    (h : meaning ps ≠ []) (hrest : Separated rest) :
    d.read sub (lexFrom pos (ps.flatMap Piece.written ++ rest)) =
      (d.addWord (meaning ps)).read sub
        (lexFrom (pos.past (ps.flatMap Piece.written)) rest) := by
  rw [lexFrom_pieces h hrest, Draft.read_word rfl, readParts_pieces]
  rfl

end Words

/-- The three ways to write a text so that it stands for itself. -/
inductive Style where
  | single
  | double
  | backslash
  deriving DecidableEq, Repr

namespace Style

/-- A text in a style. -/
def write : Style → List Char → List Char
  | .single, cs => '\'' :: cs ++ ['\'']
  | .double, cs => '"' :: cs.flatMap inDoubleQuotes ++ ['"']
  | .backslash, cs => cs.flatMap fun c => ['\\', c]

/-- Single quotes cannot hold a single quote; the other styles can write every text. -/
def Admits : Style → List Char → Prop
  | .single, cs => '\'' ∉ cs
  | _, _ => True

/-- Spelling a text out one character at a time. -/
theorem exists_spelling {α : Type} {f : α → List Char} {g : α → List Part}
    {u : Char → List Char} {text : List Char}
    (h : ∀ c ∈ text, ∃ a, f a = u c ∧ g a = [.text (String.singleton c)]) :
    ∃ l : List α, l.flatMap f = text.flatMap u ∧
      l.flatMap g = text.map fun c => .text (String.singleton c) := by
  induction text with
  | nil => exact ⟨[], rfl, rfl⟩
  | cons c text ih =>
      rcases h c (List.mem_cons_self ..) with ⟨a, hf, hg⟩
      rcases ih fun d hd => h d (List.mem_cons_of_mem _ hd) with ⟨l, hlf, hlg⟩
      exact ⟨a :: l, by simp [hf, hlf], by simp [hg, hlg]⟩

/-- Every style writes a text as pieces that mean the text. -/
theorem exists_pieces {sub : BodyReader} (style : Style) {text : List Char}
    (hnul : protectedDollar ∉ text) (h : style.Admits text) :
    ∃ ps : List (Piece sub), ps.flatMap Piece.written = style.write text ∧
      meaning ps = Word.merge [.text (String.ofList text)] := by
  have hmem (c : Char) (hc : c ∈ text) : c ≠ protectedDollar := fun hne => hnul (hne ▸ hc)
  have hchars : Word.merge (text.map fun c => .text (String.singleton c)) =
      Word.merge [.text (String.ofList text)] := Word.foldr_attach_chars text []
  cases style with
  | single => exact ⟨[.single text h hnul], by simp [Piece.written, write], rfl⟩
  | double =>
      obtain ⟨items, hwritten, hdenote⟩ :=
        exists_spelling (f := Item.written) (g := fun item => [item.denote]) (u := inDoubleQuotes)
          fun c hc => ⟨(.literal c (hmem c hc) : Item sub), rfl, rfl⟩
      rw [← List.map_eq_flatMap] at hdenote
      refine ⟨[.double items], ?_, ?_⟩
      · simp [Piece.written, write, hwritten]
      · simp [meaning, Piece.denote, hdenote, hchars]
  | backslash =>
      obtain ⟨ps, hwritten, hdenote⟩ :=
        exists_spelling (f := Piece.written) (g := Piece.denote) (u := fun c => ['\\', c])
          fun c hc => ⟨(.escaped c (hmem c hc) : Piece sub), rfl, rfl⟩
      exact ⟨ps, hwritten, by rw [meaning, hdenote, hchars]⟩

end Style

/-- Every mix of pieces that means something is read by the lexer as one word, and that word is read
as what the pieces mean, in order, with neighbouring texts joined. So a text written in any of the
three styles is read back. -/
theorem quoted_word_has_its_meaning :
    (∀ ps : List (Piece (readerWithin maxNesting)), meaning ps ≠ [] →
      ∃ raw, tokens (ps.flatMap Piece.written) = [.word raw] ∧
        Word.parse raw = .ok (meaning ps)) ∧
    (∀ (style : Style) (text : List Char), text ≠ [] → protectedDollar ∉ text →
      style.Admits text → ∃ raw, tokens (style.write text) = [.word raw] ∧
        Word.parse raw = .ok [.text (String.ofList text)]) := by
  have hpieces : ∀ ps : List (Piece (readerWithin maxNesting)), meaning ps ≠ [] →
      ∃ raw, tokens (ps.flatMap Piece.written) = [.word raw] ∧
        Word.parse raw = .ok (meaning ps) := by
    intro ps hmeaning
    have hlex := @lexFrom_pieces _ .start ps [] hmeaning (.inl rfl)
    rw [List.append_nil, lexFrom_nil] at hlex
    refine ⟨String.ofList (ps.flatMap Piece.raw), ?_, readParts_pieces ps⟩
    simp [tokens, lex, hlex]
  refine ⟨hpieces, ?_⟩
  intro style text htext hnul hadmits
  rcases style.exists_pieces hnul hadmits with ⟨ps, hwritten, hmeaning⟩
  have hword : Word.merge [.text (String.ofList text)] = [.text (String.ofList text)] := by
    simp [Word.merge, Word.attach, htext]
  have hps := hpieces ps (by simp [hmeaning, hword])
  rwa [hwritten, hmeaning, hword] at hps

/-- `a2'$X'"\$${Y}$(echo $(pwd))"`: all quoting styles, a variable and a substitution in a
substitution. -/
def mixedPieces : List (Piece (readerWithin maxNesting)) :=
  [.plain ['a', '2'] (List.all_eq_true.1 (by decide)) (by decide),
    .single ['$', 'X'] (by decide) (by decide),
    .double [.literal '$' (by decide), .expansion (.var ['Y'] (by decide)),
      .expansion (.substitution "echo $(pwd)".toList
        [⟨[.text "echo"], [[.substitution [⟨[.text "pwd"], [], []⟩]]], []⟩]
        (by decide) (readerWithin_eq_ok (n := 1) (by decide) (by with_unfolding_all rfl)))]]

/-- One word with all kinds of pieces, in which quoted and unquoted ones touch. -/
theorem mixed_word_has_its_meaning :
    meaning mixedPieces ≠ [] ∧
      (∃ raw, tokens "a2'$X'\"\\$${Y}$(echo $(pwd))\"".toList = [.word raw] ∧
        Word.parse raw = .ok [.text "a2$X$", .var "Y",
          .substitution [⟨[.text "echo"], [[.substitution [⟨[.text "pwd"], [], []⟩]]], []⟩]]) ∧
      ∃ raw, tokens "\"a\\\"b\"".toList = [.word raw] ∧ Word.parse raw = .ok [.text "a\"b"] := by
  have hmeaning : meaning mixedPieces = [.text "a2$X$", .var "Y",
      .substitution [⟨[.text "echo"], [[.substitution [⟨[.text "pwd"], [], []⟩]]], []⟩]] := by
    rfl
  have hne : meaning mixedPieces ≠ [] := by simp [hmeaning]
  have hmixed := quoted_word_has_its_meaning.1 mixedPieces hne
  have hdouble := quoted_word_has_its_meaning.2 .double ['a', '"', 'b'] (by decide) (by decide)
    trivial
  rw [hmeaning] at hmixed
  exact ⟨hne, hmixed, hdouble⟩

end LineShell
