import LineShell.Pipeline.Parser
import LineShell.Proofs.Chunks

/-!
# Nesting — reading with more levels to spare

`parseWithin n` reads a text in which substitutions nest to at most `n` levels. A text that can be
read with fewer levels is read alike with more, so `Pipeline.parse` agrees with every `parseWithin`
below the bound.

* `Draft.read_word`, `Draft.read_redirection`, `Draft.read_missing`, `Draft.read_misplaced`,
  `Draft.read_pipe` — one equation for each kind of lexeme;
* `Draft.read_extends` — a reader of substitutions that reads more changes no result;
* `parseWithin_mono`, `readerWithin_eq_ok` — more levels, the same pipeline.
-/

namespace LineShell

/-- What one reader of substitutions reads, the other reads alike. -/
def BodyReader.Extends (sub sub' : BodyReader) : Prop :=
  ∀ column inner stages, sub column inner = .ok stages → sub' column inner = .ok stages

/-- Mapping with errors succeeds where a less demanding function does. -/
theorem mapM_eq_ok_of_imp {α β ε : Type} {f g : α → Except ε β}
    (h : ∀ a b, f a = .ok b → g a = .ok b) {l : List α} {bs : List β} (hl : l.mapM f = .ok bs) :
    l.mapM g = .ok bs := by
  induction l generalizing bs with
  | nil => exact hl
  | cons a l ih =>
      cases ha : f a with
      | error e =>
          rw [mapM_cons_of_error ha] at hl
          cases hl
      | ok b =>
          rw [mapM_cons_of_ok ha] at hl
          cases htail : l.mapM f with
          | error e =>
              rw [htail] at hl
              cases hl
          | ok tail =>
              rw [htail] at hl
              rw [mapM_cons_of_ok (h a b ha), ih htail]
              exact hl

/-- A reader that accepts more bodies accepts more words. -/
theorem readParts_extends {sub sub' : BodyReader} (h : sub.Extends sub') {column : Nat}
    {raw : String} {w : Word} (hw : readParts sub column raw = .ok w) :
    readParts sub' column raw = .ok w := by
  refine mapM_eq_ok_of_imp ?_ hw
  intro seg p hp
  cases seg with
  | text cs => exact hp
  | var name => exact hp
  | body inner =>
      cases hsub : sub column inner with
      | error e => simp [Segment.toPart, hsub, Except.map] at hp
      | ok stages =>
          rw [← hp]
          simp only [Segment.toPart, hsub, h column inner stages hsub]

theorem bind_eq_ok_iff {α β ε : Type} {x : Except ε α} {f : α → Except ε β} {b : β} :
    (x >>= f) = .ok b ↔ ∃ a, x = .ok a ∧ f a = .ok b := by
  cases x with
  | error e => simp [bind, Except.bind]
  | ok a => simp [bind, Except.bind]

namespace Draft

variable {sub : BodyReader} {d : Draft} {lexeme : Lexeme} {rest : List Lexeme}

theorem read_nil : d.read sub [] = .ok d.finish := by
  rw [read]

/-- A word joins the draft. -/
theorem read_word {raw : String} (h : lexeme.token = .word raw) :
    d.read sub (lexeme :: rest) =
      readParts sub lexeme.start.column raw >>= fun w => (d.addWord w).read sub rest := by
  rw [read.eq_def]
  simp only [h]

/-- A redirection joins the draft together with its target. -/
theorem read_redirection {target : Lexeme} {role : Role} {append : Bool} {raw : String}
    (hop : lexeme.token.redirects? = some (role, append)) (h : target.token = .word raw) :
    d.read sub (lexeme :: target :: rest) =
      readParts sub target.start.column raw >>= fun w =>
        (d.redirect ⟨role, append, w⟩).read sub rest := by
  rw [read.eq_def]
  cases htoken : lexeme.token with
  | word raw => simp [htoken, Token.redirects?] at hop
  | _ =>
      rw [htoken] at hop
      simp only [htoken, hop, h]

/-- At the end of the line an operator has no target. -/
theorem read_missing {r : Role × Bool} (hop : lexeme.token.redirects? = some r) :
    d.read sub [lexeme] = .error ⟨.missingTarget lexeme.token, lexeme.start.column⟩ := by
  rw [read.eq_def]
  cases htoken : lexeme.token with
  | word raw => simp [htoken, Token.redirects?] at hop
  | _ =>
      rw [htoken] at hop
      simp only [htoken, hop]

/-- Another operator is no target. -/
theorem read_misplaced {found : Lexeme} {r : Role × Bool}
    (hop : lexeme.token.redirects? = some r) (h : ∀ raw, found.token ≠ .word raw) :
    d.read sub (lexeme :: found :: rest) =
      .error ⟨.misplacedToken lexeme.token found.token, lexeme.start.column⟩ := by
  rw [read.eq_def]
  cases htoken : lexeme.token with
  | word raw => simp [htoken, Token.redirects?] at hop
  | _ =>
      rw [htoken] at hop
      simp only [htoken, hop]

/-- A bar ends the draft. -/
theorem read_pipe (h : lexeme.token = .pipe) :
    d.read sub (lexeme :: rest) =
      ({} : Draft).read sub rest >>= fun tail => .ok (d.finish ++ tail) := by
  rw [read.eq_def]
  simp only [h, Token.redirects?]
  rfl

/-- Only a bar neither is a word nor redirects a stream. -/
theorem eq_pipe_of_redirects?_eq_none {token : Token} (h : token.redirects? = none)
    (hword : ∀ raw, token ≠ .word raw) : token = .pipe := by
  cases token <;> simp_all [Token.redirects?]

/-- A reader that accepts more bodies accepts more lines. -/
theorem read_extends {sub' : BodyReader} (h : sub.Extends sub') {lexemes : List Lexeme}
    {p : Pipeline} (hp : d.read sub lexemes = .ok p) : d.read sub' lexemes = .ok p := by
  fun_induction Draft.read sub d lexemes generalizing p with
  | case1 d =>
      rw [read_nil]
      exact hp
  | case2 d lexeme rest raw htoken ih =>
      rcases bind_eq_ok_iff.1 hp with ⟨w, hw, hrest⟩
      rw [read_word htoken]
      exact bind_eq_ok_iff.2 ⟨w, readParts_extends h hw, ih w hrest⟩
  | case3 =>
      -- An operator without a target is a fault for every reader.
      cases hp
  | case4 d lexeme role append hop target rest raw htoken _ ih =>
      rcases bind_eq_ok_iff.1 hp with ⟨w, hw, hrest⟩
      rw [read_redirection hop htoken]
      exact bind_eq_ok_iff.2 ⟨w, readParts_extends h hw, ih w hrest⟩
  | case5 => cases hp
  | case6 d lexeme rest hop hword ih =>
      rcases bind_eq_ok_iff.1 hp with ⟨tail, htail, hp⟩
      rw [read_pipe (eq_pipe_of_redirects?_eq_none hop hword)]
      exact bind_eq_ok_iff.2 ⟨tail, ih htail, hp⟩

/-- What follows a draft with a name is added behind the arguments that it has. -/
theorem args_prefix_of_read {lexemes : List Lexeme} {name : Word} {p : Pipeline}
    (hname : d.name = some name) (hp : d.read sub lexemes = .ok p) :
    ∃ s stages, p = s :: stages ∧ d.args <+: s.args := by
  -- Arguments are only ever added at the end, so those of a draft stay in front.
  fun_induction Draft.read sub d lexemes generalizing p with
  | case1 d =>
      simp only [finish, hname, Except.ok.injEq] at hp
      exact ⟨_, [], hp.symm, List.prefix_refl _⟩
  | case2 d lexeme rest raw htoken ih =>
      rcases bind_eq_ok_iff.1 hp with ⟨w, -, hrest⟩
      have hadd : d.addWord w = { d with args := d.args ++ [w] } := by
        simp [addWord, hname]
      rcases ih w (by simp [hadd, hname]) hrest with ⟨s, stages, rfl, hargs⟩
      rw [hadd] at hargs
      exact ⟨s, stages, rfl, (List.prefix_append _ _).trans hargs⟩
  | case3 => cases hp
  | case4 d lexeme role append hop target rest raw htoken _ ih =>
      rcases bind_eq_ok_iff.1 hp with ⟨w, -, hrest⟩
      exact ih w hname hrest
  | case5 => cases hp
  | case6 d lexeme rest hop hword ih =>
      rcases bind_eq_ok_iff.1 hp with ⟨tail, -, hp⟩
      simp only [finish, hname, pure, Except.pure, Except.ok.injEq] at hp
      exact ⟨_, tail, hp.symm, List.prefix_refl _⟩

end Draft

/-! ## Levels -/

/-- How the texts of substitutions are read inside a text for which so many levels are left. -/
def readerWithin : Nat → BodyReader
  | 0 => fun column _ => .error ⟨.tooDeep, column⟩
  | n + 1 => fun _ inner => parseWithin n inner

/-- To parse within a limit is to read the tokens with bodies parsed within it. -/
theorem parseWithin_eq_read (n : Nat) (cs : List Char) :
    parseWithin n cs = ({} : Draft).read (readerWithin n) (lex cs) := by
  cases n with
  | zero => rfl
  | succ n => rfl

/-- One level more accepts no less, and reads the same. -/
theorem readerWithin_extends_succ (n : Nat) :
    (readerWithin n).Extends (readerWithin (n + 1)) := by
  induction n with
  | zero =>
      -- With no levels left, nothing is read.
      intro column inner stages h
      cases h
  | succ n ih =>
      intro column inner stages h
      have hread : parseWithin n inner = .ok stages := h
      rw [parseWithin_eq_read] at hread
      exact (parseWithin_eq_read (n + 1) inner).trans (Draft.read_extends ih hread)

/-- A text that can be read with fewer levels is read alike with more. -/
theorem parseWithin_mono {n m : Nat} (hnm : n ≤ m) {cs : List Char} {p : Pipeline}
    (h : parseWithin n cs = .ok p) : parseWithin m cs = .ok p := by
  induction hnm with
  | refl => exact h
  | step _ ih =>
      rw [parseWithin_eq_read] at ih ⊢
      exact Draft.read_extends (readerWithin_extends_succ _) ih

/-- A text that needs fewer levels than are left can stand in a substitution. -/
theorem readerWithin_eq_ok {n m : Nat} (hnm : n < m) {cs : List Char} {p : Pipeline}
    (h : parseWithin n cs = .ok p) (column : Nat) : readerWithin m column cs = .ok p := by
  cases m with
  | zero => exact absurd hnm (Nat.not_lt_zero n)
  | succ m => exact parseWithin_mono (Nat.le_of_lt_succ hnm) h

end LineShell
