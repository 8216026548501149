import LineShell.Proofs.NormalForm
import LineShell.Proofs.Spans
import LineShell.Proofs.Truncation

/-!
# Descent — texts inside a text are shorter

The text of a substitution is read as a line of its own. It is cut out of a word, and a word is no
piece of the line: its quotes are gone, some of its backslashes are still there, and protected
dollar signs stand in it as marks. None of this makes a word longer than what it was read from, so
each level of nesting costs the two bytes of an opening.

* `Reading.owed`, `Reading.byteCount_run_le` — a word has no more bytes than were read for it;
* `byteCount_word_le` — a word fits the span of its lexeme;
* `Inner.byteCount_le`, `Nested.byteCount_le` — the texts inside a text;
* `Draft.read_congr` — a line has no other texts read than these;
* `parseFreely` — reading without a limit on the levels, and `parseFreely_unique`;
* `nested_texts_shrink` — all of it, and how long a line must be to come to the limit.
-/

namespace LineShell

/-! ## Bytes -/

namespace Text

/-- Bytes of texts add up. -/
theorem byteCount_append (as bs : List Char) :
    byteCount (as ++ bs) = byteCount as + byteCount bs := by
  induction as with
  | nil => simp [byteCount]
  | cons a as ih => rw [List.cons_append, byteCount, byteCount, ih, Nat.add_assoc]

/-- A part of a text has no more bytes than the text. -/
theorem byteCount_le_of_isInfix {as bs : List Char} (h : as <:+: bs) :
    byteCount as ≤ byteCount bs := by
  rcases h with ⟨front, back, rfl⟩
  rw [byteCount_append, byteCount_append]
  omega

end Text

open Text

/-! ## Words -/

namespace Reading

/-- The bytes that were read for a word and may still come into it: a backslash, until it is known
what follows it. -/
def owed : Reading → Nat
  | .escape _ => 1
  | _ => 0

/-- What a step gives out and still owes is at most what was owed and read. -/
theorem byteCount_step_le (s : Reading) (c : Char) :
    byteCount (s.step c).2 + (s.step c).1.owed ≤ s.owed + c.utf8Size := by
  have hpos := c.utf8Size_pos
  -- The signs that are put into a word for others have one byte each.
  have hsigns : '('.utf8Size = 1 ∧ '$'.utf8Size = 1 ∧ '\\'.utf8Size = 1 ∧
    protectedDollar.utf8Size = 1 := by decide
  cases s with
  | text q dollar =>
      rw [step]
      split
      · simp only [byteCount, owed]
        omega
      split
      · simp only [byteCount, owed]
        omega
      split
      · simp only [byteCount, owed]
        omega
      split
      · split <;> simp only [byteCount, owed] <;> omega
      · simp only [byteCount, owed]
        omega
  | escape q =>
      rw [step]
      split
      · simp only [byteCount, owed]
        omega
      · simp only [byteCount, owed, protect]
        split <;> omega
  | body inner outer =>
      rw [step]
      split <;> simp only [byteCount, owed] <;> omega

/-- Over a whole run, no more bytes are given out than were read. -/
theorem byteCount_run_le (s : Reading) (cs : List Char) :
    byteCount (s.run cs).2 + (s.run cs).1.owed ≤ s.owed + byteCount cs := by
  induction cs generalizing s with
  | nil => simp [byteCount]
  | cons c cs ih =>
      have hstep := byteCount_step_le s c
      have hrest := ih (s.step c).1
      rw [run_cons, byteCount_append, byteCount]
      simp only
      omega

end Reading

section Words

variable {cs inner found : List Char} {raw : String} {lexeme : Lexeme} {x : Stretch}
  {rest : List Char}

/-- The word that a stretch stands for is no longer than the stretch. -/
theorem Stretch.Fits.byteCount_word_le (h : x.Fits rest) (hword : x.token? = some (.word raw)) :
    byteCount raw.toList ≤ byteCount x.chars := by
  cases h with
  | blank h => cases hword
  | operator hop hgrow =>
      cases hword
      exact hop.elim
  | @word v out rest s hv h hstop =>
      have hrun := Reading.byteCount_run_le .fresh v
      rw [h.run_eq] at hrun
      simp only [ofWord] at hword
      split at hword
      · cases hword
      · cases hword
        rw [String.toList_ofList]
        have hread : byteCount out + s.owed ≤ 0 + byteCount v := hrun
        change byteCount out ≤ byteCount v
        omega

/-- A word has at most as many bytes as its lexeme spans. -/
theorem offset_add_byteCount_le (h : lexeme ∈ lex cs) (hword : lexeme.token = .word raw) :
    lexeme.start.offset + byteCount raw.toList ≤ lexeme.stop.offset := by
  rcases exists_cut cs with ⟨xs, hcut, rfl⟩
  rw [lex, lexFrom_text hcut] at h
  rcases exists_stretch_of_mem_locate h with ⟨front, x, back, rfl, htoken, hstart, hstop⟩
  have hfits := hcut.right.1.byteCount_word_le (htoken.trans (congrArg some hword))
  rw [hstart, hstop, Position.past_append, Position.past_offset _ x.chars, ← byteCount_eq]
  omega

/-- No word of a line is longer than the line. -/
theorem byteCount_word_le (h : .word raw ∈ tokens cs) : byteCount raw.toList ≤ byteCount cs := by
  rcases exists_cut cs with ⟨xs, hcut, rfl⟩
  rw [tokens_text hcut] at h
  rcases List.mem_filterMap.1 h with ⟨x, hx, htoken⟩
  rcases List.append_of_mem hx with ⟨front, back, rfl⟩
  have hfits := hcut.right.1.byteCount_word_le htoken
  have hpiece : x.chars <:+: text (front ++ x :: back) := ⟨text front, text back, by simp⟩
  exact Nat.le_trans hfits (byteCount_le_of_isInfix hpiece)

/-! ## Texts of substitutions -/

/-- Pushing text adds no body. -/
theorem Segment.mem_of_body_mem_pushText {segs : List Segment}
    (h : .body inner ∈ pushText cs segs) :
    .body inner ∈ segs := by
  unfold pushText at h
  split at h <;> simp_all

/-- The text of a substitution stands in the word behind its opening. -/
theorem opening_isInfix_of_body_mem (h : .body inner ∈ Segment.split cs) :
    '$' :: '(' :: inner <:+: cs := by
  -- The induction is on the splitting itself; only its second case puts a body in front.
  fun_induction Segment.split cs with
  | case1 => cases h
  | case2 cs _ ih =>
      have hwritten := written_substitutionBody cs
      rcases List.mem_cons.1 h with heq | htail
      · cases heq
        refine ⟨[], (if closes cs then [')'] else []) ++ (substitutionBody cs).2, ?_⟩
        simpa [Chunk.written] using hwritten
      · rw [← hwritten]
        exact (ih htail).trans (List.suffix_append _ _).isInfix
  | case3 cs hbraced ih =>
      exact (ih (Segment.mem_of_body_mem_pushText h)).trans (List.suffix_cons _ _).isInfix
  | case4 cs name rest hbraced _ hname ih =>
      rcases List.mem_cons.1 h with heq | htail
      · cases heq
      · rw [(braced?_eq_some_iff.1 hbraced).1]
        refine (ih htail).trans ⟨'$' :: '{' :: name ++ ['}'], [], by simp⟩
  | case5 cs name rest hbraced _ hname ih =>
      rw [(braced?_eq_some_iff.1 hbraced).1]
      exact (ih (Segment.mem_of_body_mem_pushText h)).trans ⟨'$' :: '{' :: name ++ ['}'],
        [], by simp⟩
  | case6 cs hparen hbrace name hname ih =>
      exact (ih (Segment.mem_of_body_mem_pushText h)).trans (List.suffix_cons _ _).isInfix
  | case7 cs hparen hbrace name hname ih =>
      rcases List.mem_cons.1 h with heq | htail
      · cases heq
      · exact (ih htail).trans ((List.drop_suffix _ _).trans (List.suffix_cons _ _)).isInfix
  | case8 c cs hparen hbrace hdollar ih =>
      exact (ih (Segment.mem_of_body_mem_pushText h)).trans (List.suffix_cons _ _).isInfix

/-- A body is shorter than its word by the two signs before it. -/
theorem byteCount_body_le (h : .body inner ∈ Segment.split cs) :
    byteCount inner + 2 ≤ byteCount cs := by
  have hopening := byteCount_le_of_isInfix (opening_isInfix_of_body_mem h)
  have hsigns : '$'.utf8Size = 1 ∧ '('.utf8Size = 1 := by decide
  rw [byteCount, byteCount] at hopening
  omega

/-- A text in a substitution is at least two bytes shorter than the text around it. -/
theorem Inner.byteCount_le (h : Inner cs inner) : byteCount inner + 2 ≤ byteCount cs := by
  rcases h with ⟨raw, hraw, hbody⟩
  have hword := byteCount_word_le hraw
  have hinner := byteCount_body_le hbody
  omega

/-- Each level takes two bytes off what is found. -/
theorem Nested.byteCount_le {depth : Nat} (h : Nested cs depth found) :
    byteCount found + 2 * depth ≤ byteCount cs := by
  induction h with
  | here cs => omega
  | inside hinner _ ih =>
      have hstep := hinner.byteCount_le
      omega

end Words

/-! ## What a line has read -/

section Readers

variable {sub sub' : BodyReader} {cs : List Char} {d : Draft}

/-- Readers that agree on the bodies of a word read the same parts. -/
theorem readParts_congr {column : Nat} {raw : String}
    (h : ∀ inner, .body inner ∈ Segment.split raw.toList → sub column inner = sub' column inner) :
    readParts sub column raw = readParts sub' column raw := by
  unfold readParts
  generalize Segment.split raw.toList = segs at h
  induction segs with
  | nil => rfl
  | cons seg segs ih =>
      have hseg : seg.toPart sub column = seg.toPart sub' column := by
        cases seg with
        | text cs => rfl
        | var name => rfl
        | body inner => rw [Segment.toPart, Segment.toPart, h inner List.mem_cons_self]
      rw [List.mapM_cons, List.mapM_cons, hseg, ih fun inner hinner =>
        h inner (List.mem_cons_of_mem _ hinner)]

/-- Readers that agree on the words of a line read the same pipeline. -/
theorem Draft.read_congr_words {xs : List Lexeme}
    (h : ∀ x ∈ xs, ∀ raw, x.token = .word raw →
      readParts sub x.start.column raw = readParts sub' x.start.column raw) :
    d.read sub xs = d.read sub' xs := by
  fun_induction Draft.read sub d xs with
  | case1 d => rw [read_nil]
  | case2 d x xs raw htoken ih =>
      rw [read_word htoken, h x List.mem_cons_self raw htoken]
      congr 1
      funext w
      exact ih w fun x hx => h x (List.mem_cons_of_mem _ hx)
  | case3 d x role append hop hword => rw [read_missing hop]
  | case4 d x role append hop target xs raw htoken hword ih =>
      rw [read_redirection hop htoken, h target (by simp) raw htoken]
      congr 1
      funext w
      exact ih w fun x hx => h x (List.mem_cons_of_mem _ (List.mem_cons_of_mem _ hx))
  | case5 d x role append hop found xs hword hfound => rw [read_misplaced hop hfound]
  | case6 d x xs hop hword ih =>
      rw [read_pipe (eq_pipe_of_redirects?_eq_none hop hword), ih fun x hx =>
        h x (List.mem_cons_of_mem _ hx)]
      rfl

/-- A line has no other texts read than those in its own substitutions. -/
theorem Draft.read_congr (h : ∀ column inner, Inner cs inner →
    sub column inner = sub' column inner) :
    d.read sub (lex cs) = d.read sub' (lex cs) := by
  refine read_congr_words fun x hx raw htoken => readParts_congr fun inner hinner => ?_
  exact h _ inner ⟨raw, List.mem_map.2 ⟨x, hx, htoken⟩, hinner⟩

end Readers

/-! ## Without a limit -/

section Levels

variable {n m column : Nat} {cs inner : List Char}

/-- Two limits that a body cannot reach make no difference to it. -/
theorem readerWithin_congr (hn : byteCount inner < 2 * n) (hm : byteCount inner < 2 * m) :
    readerWithin n column inner = readerWithin m column inner := by
  induction n generalizing m column inner with
  | zero => omega
  | succ n ih =>
      cases m with
      | zero => omega
      | succ m =>
          change parseWithin n inner = parseWithin m inner
          rw [parseWithin_eq_read, parseWithin_eq_read]
          refine Draft.read_congr fun column body hbody => ?_
          have hshorter := hbody.byteCount_le
          exact ih (by omega) (by omega)

/-- Reads a text in which substitutions may be nested to any number of levels. The text has more
bytes than levels. -/
def parseFreely (cs : List Char) : Except SyntaxError Pipeline :=
  parseWithin (byteCount cs) cs

/-- A limit that a line cannot reach changes nothing. -/
theorem parseWithin_eq_parseFreely (h : byteCount cs < 2 * (n + 1)) :
    parseWithin n cs = parseFreely cs :=
  @readerWithin_congr (n + 1) (byteCount cs + 1) 0 cs h (by omega)

/-- Without a limit, the text of each substitution is read in the same way as the text around it. -/
theorem parseFreely_eq (cs : List Char) :
    parseFreely cs = ({} : Draft).read (fun _ inner => parseFreely inner) (lex cs) := by
  rw [parseFreely, parseWithin_eq_read]
  refine Draft.read_congr fun column inner hinner => ?_
  have hshorter := hinner.byteCount_le
  exact @readerWithin_congr _ (byteCount inner + 1) column inner (by omega) (by omega)

/-- Reading without a limit is the only solution of its equation. -/
theorem parseFreely_unique {read : List Char → Except SyntaxError Pipeline}
    (h : ∀ cs, read cs = ({} : Draft).read (fun _ inner => read inner) (lex cs)) (cs : List Char) :
    read cs = parseFreely cs := by
  induction hbytes : byteCount cs using Nat.strongRecOn generalizing cs with
  | ind bytes ih =>
      rw [h, parseFreely_eq]
      refine Draft.read_congr fun column inner hinner => ?_
      have hshorter := hinner.byteCount_le
      exact ih _ (by omega) inner rfl

end Levels

/-! ## The limit -/

section Limit

variable {n : Nat} {cs : List Char} {place : List Nat} {e : SyntaxError}

/-- The body at a place of a word at a place of the line is an inner text. -/
theorem Inner.of_getElem? {i j : Nat} {x : Lexeme} {raw : String} {inner : List Char}
    (hx : (lex cs)[i]? = some x) (hraw : x.token = .word raw)
    (hj : (Segment.split raw.toList)[j]? = some (.body inner)) : Inner cs inner :=
  ⟨raw, List.mem_map.2 ⟨x, List.mem_of_getElem? hx, hraw⟩, List.mem_of_getElem? hj⟩

/-- Only a text that stands inside one substitution too many is too deep. -/
theorem exists_nested_of_tooDeep (h : Offence n cs place e) (hdeep : e.fault = .tooDeep) :
    ∃ inner, Nested cs (n + 1) inner := by
  induction n generalizing cs place with
  | zero =>
      cases h with
      | missing => cases hdeep
      | misplaced => cases hdeep
      | @inside i j x raw inner place e hx hraw hj h =>
          exact ⟨inner, .inside (.of_getElem? hx hraw hj) (.here inner)⟩
  | succ n ih =>
      cases h with
      | missing => cases hdeep
      | misplaced => cases hdeep
      | @inside i j x raw inner place e hx hraw hj h =>
          rcases ih h with ⟨found, hfound⟩
          exact ⟨found, .inside (.of_getElem? hx hraw hj) hfound⟩

/-- A text must have two bytes for each level, and two more, to be found too deep. -/
theorem fault_ne_tooDeep (h : byteCount cs < 2 * (n + 1)) (herror : parseWithin n cs = .error e) :
    e.fault ≠ .tooDeep := by
  intro hdeep
  rcases parseWithin_eq_error_iff.1 herror with ⟨place, hplace, -⟩
  rcases exists_nested_of_tooDeep hplace hdeep with ⟨inner, hinner⟩
  have hbytes := hinner.byteCount_le
  omega

/-- A word that cannot be read holds a substitution that cannot be read. -/
theorem exists_body_of_readParts_error {sub : BodyReader} {column : Nat} {raw : String}
    (h : readParts sub column raw = .error e) :
    ∃ inner, .body inner ∈ Segment.split raw.toList ∧ sub column inner = .error e := by
  unfold readParts at h
  generalize Segment.split raw.toList = segs at h
  induction segs with
  | nil => cases h
  | cons seg segs ih =>
      -- Texts and names are always read, so the first fault is that of a body.
      cases hseg : seg.toPart sub column with
      | error e' =>
          rw [mapM_cons_of_error hseg] at h
          cases h
          cases seg with
          | text cs => cases hseg
          | var name => cases hseg
          | body inner =>
              cases hsub : sub column inner with
              | ok p => simp [Segment.toPart, hsub, Except.map] at hseg
              | error e =>
                  simp only [Segment.toPart, hsub, Except.map, Except.error.injEq] at hseg
                  exact ⟨inner, List.mem_cons_self, hseg ▸ hsub⟩
      | ok part =>
          rw [mapM_cons_of_ok hseg] at h
          cases htail : segs.mapM (Segment.toPart sub column) with
          | ok parts =>
              rw [htail] at h
              cases h
          | error e' =>
              rw [htail] at h
              cases h
              rcases ih htail with ⟨inner, hinner, hsub⟩
              exact ⟨inner, List.mem_cons_of_mem _ hinner, hsub⟩

/-- Openings of substitutions, each inside the one before, and none of them closed. -/
def openings : Nat → List Char
  | 0 => []
  | n + 1 => '$' :: '(' :: openings n

theorem byteCount_openings (n : Nat) : byteCount (openings n) = 2 * n := by
  have hsigns : '$'.utf8Size = 1 ∧ '('.utf8Size = 1 := by decide
  induction n with
  | zero => rfl
  | succ n ih =>
      rw [openings, byteCount, byteCount, ih]
      omega

/-- Openings that never close are no body. -/
theorem split?_openings (depth n : Nat) :
    (Body.mk (depth + 1) .bare false).split? (openings n) = none := by
  induction n generalizing depth with
  | zero => rfl
  | succ n ih => simp [openings, Body.split?, Body.step, Quote.toggle, ih]

/-- A reader that fails on the inner openings fails on all of them. -/
theorem read_openings (h : readerWithin n 1 (openings n) = .error e) :
    parseWithin n (openings (n + 1)) = .error e := by
  have hunclosed : Body.opened.split? (openings n) = none := split?_openings 0 n
  have hbody : (substitutionBody (openings n)).1 = openings n := by
    rw [substitutionBody, hunclosed]
    rfl
  rw [parseWithin_eq_read, openings, lex, lexFrom_unclosed hunclosed, Draft.read_word rfl,
    readParts_opened, hbody]
  change (readerWithin n 1 (openings n) >>= _) >>= _ = _
  rw [h]
  rfl

/-- With two bytes for each level and two more, a text can be found too deep. -/
theorem parseWithin_openings (n : Nat) :
    parseWithin n (openings (n + 1)) = .error ⟨.tooDeep, 1⟩ := by
  induction n with
  | zero => exact read_openings rfl
  | succ n ih => exact read_openings ih

end Limit

/-! ## Lines -/

/-- What is read on the way down from a line. -/
structure Descends (line : List Char) : Prop where
  /-- A word has at most as many bytes as its lexeme spans. -/
  fits : ∀ lexeme ∈ lex line, ∀ raw, lexeme.token = .word raw →
    lexeme.start.offset + raw.utf8ByteSize ≤ lexeme.stop.offset
  /-- A text in a substitution is at least two bytes shorter than the line. -/
  shorter : ∀ inner, Inner line inner → byteCount inner + 2 ≤ byteCount line
  /-- No other text is handed to the reader of substitutions. -/
  handed : ∀ sub sub' : BodyReader, (∀ column inner, Inner line inner →
    sub column inner = sub' column inner) →
    ({} : Draft).read sub (lex line) = ({} : Draft).read sub' (lex line)
  /-- To read the line without a limit is to read these texts without a limit. -/
  free : parseFreely line = ({} : Draft).read (fun _ inner => parseFreely inner) (lex line)

/-- Every line is read the same by readers that agree on its inner texts, and those are shorter. -/
theorem descends (line : List Char) : Descends line where
  fits := by
    intro lexeme hlexeme raw hraw
    have hfits := offset_add_byteCount_le hlexeme hraw
    rwa [byteCount_eq, String.ofList_toList] at hfits
  shorter := fun _ => Inner.byteCount_le
  handed := fun _ _ h => Draft.read_congr h
  free := parseFreely_eq line

/-- The texts that are read on the way down from a line get shorter by two bytes with each level, so
that the way down ends without a limit on the levels: there is exactly one way to read lines without
it. With the limit, a line or a word is never found too deep unless it has 258 bytes, and it can be
if it has. -/
theorem nested_texts_shrink :
    (∀ line, Descends line) ∧
    (∀ raw inner, .body inner ∈ Segment.split raw → byteCount inner + 2 ≤ byteCount raw) ∧
    WellFounded (fun inner line => Inner line inner) ∧
    (∀ read : List Char → Except SyntaxError Pipeline,
      (∀ line, read line = ({} : Draft).read (fun _ inner => read inner) (lex line)) →
      read = parseFreely) ∧
    (∀ line e, parseFreely line = .error e → e.fault ≠ .tooDeep) ∧
    (∀ line : String, line.utf8ByteSize < 258 → Pipeline.parse line = parseFreely line.toList ∧
      ∀ e, Pipeline.parse line = .error e ∨ Word.parse line = .error e → e.fault ≠ .tooDeep) ∧
    ∃ line : String, line.utf8ByteSize = 258 ∧ Pipeline.parse line = .error ⟨.tooDeep, 1⟩ := by
  refine ⟨descends, fun _ _ => byteCount_body_le, ?_, ?_, ?_, ?_, ?_⟩
  · exact Subrelation.wf (fun h => Nat.lt_of_succ_lt h.byteCount_le) (measure byteCount).wf
  · exact fun read h => funext (parseFreely_unique h)
  · exact fun line e => fault_ne_tooDeep (by omega)
  · intro line hline
    have hbytes : byteCount line.toList < 258 := by rwa [byteCount_eq, String.ofList_toList]
    refine ⟨parseWithin_eq_parseFreely hbytes, ?_⟩
    rintro e (hparse | hword)
    · exact fault_ne_tooDeep hbytes hparse
    · rcases exists_body_of_readParts_error hword with ⟨inner, hinner, herror⟩
      have hshorter := byteCount_body_le hinner
      exact @fault_ne_tooDeep 127 inner e (by omega) herror
  · refine ⟨String.ofList (openings 129), ?_, ?_⟩
    · rw [← byteCount_eq, byteCount_openings]
    · rw [Pipeline.parse, String.toList_ofList]
      exact parseWithin_openings 128

/-- In a word of which a backslash is kept, and in the line around it, there is room for the text of
a substitution. -/
theorem kept_backslash_fits :
    ⟨.word "\\a$(é)", ⟨1, 0⟩, ⟨9, 9⟩⟩ ∈ lex "\"\\a$(é)\"".toList ∧ 0 + "\\a$(é)".utf8ByteSize ≤ 9 ∧
      byteCount "é".toList + 2 ≤ byteCount "\\a$(é)".toList ∧
      byteCount "é".toList + 2 ≤ byteCount "\"\\a$(é)\"".toList ∧
      ∀ e, Pipeline.parse "\"\\a$(é)\"" = .error e → e.fault ≠ .tooDeep := by
  have hmem : ⟨.word "\\a$(é)", ⟨1, 0⟩, ⟨9, 9⟩⟩ ∈ lex "\"\\a$(é)\"".toList := by
    decide +kernel
  have hbody : .body "é".toList ∈ Segment.split "\\a$(é)".toList := by
    decide +kernel
  rcases nested_texts_shrink with ⟨hdescends, hwords, -, -, -, hlimit, -⟩
  refine ⟨hmem, (hdescends _).fits _ hmem _ rfl, hwords _ _ hbody, ?_, ?_⟩
  · exact (hdescends _).shorter _ ⟨_, List.mem_map.2 ⟨_, hmem, rfl⟩, hbody⟩
  · exact fun e he => (hlimit _ (by decide)).2 e (.inl he)

end LineShell
