import LineShell.Token.Lexer
import LineShell.Proofs.Scanning

/-!
# Reading — how the lexer walks through a word

The lexer takes one character after the other and asks before each whether the word ends there. This
file separates the two questions:

* `Reading.run` — the state behind a run of characters and what it adds to the word;
* `Reading.Reads s w out s' rest` — in front of `rest`, the lexer reads all of `w` as part of one
  word;
* `lexFrom_word`, `lexFrom_operator`, `lexFrom_blank` — the lexemes of a line, one at a time;
* `foundIn_of_mem_lexFrom` — every word of a line comes from such a reading.

A reading names the text behind it, because a word may end at digits only if an output operator
follows them.
-/

namespace LineShell

/-! ## Marks -/

/-- Taking the protection off gives the character back. -/
theorem unprotect_protect {c : Char} (h : c ≠ protectedDollar) : unprotect (protect c) = c := by
  by_cases hc : c = '$'
  · simp [protect, unprotect, hc]
  · simp [protect, unprotect, hc, h]

/-- A protected character is never a dollar sign. -/
theorem protect_ne_dollar (c : Char) : protect c ≠ '$' := by
  unfold protect protectedDollar
  split
  · decide
  · assumption

/-! ## Where words end -/

/-- An output operator stands at the head of a text, with or without digits before it. -/
def SignAhead (cs : List Char) : Prop :=
  (cs.dropWhile Char.isDigit).head? = some '>'

theorem not_signAhead_nil : ¬ SignAhead [] := by
  simp [SignAhead]

/-- A sign is ahead behind any number of digits. -/
theorem signAhead_cons {c : Char} {cs : List Char} :
    SignAhead (c :: cs) ↔ c = '>' ∨ (c.isDigit = true ∧ SignAhead cs) := by
  unfold SignAhead
  rw [List.dropWhile_cons]
  by_cases hd : c.isDigit = true
  · -- A digit is looked through, and it is not the sign itself.
    have hc : c ≠ '>' := by
      rintro rfl
      exact absurd hd (by decide)
    simp [hd, hc]
  · simp [hd]

/-- Text without an arrow starts no output sign of its own. -/
theorem not_signAhead_append {cs rest : List Char} (hcs : '>' ∉ cs) (hrest : ¬ SignAhead rest) :
    ¬ SignAhead (cs ++ rest) := by
  induction cs with
  | nil => exact hrest
  | cons c cs ih =>
      simp only [List.mem_cons, not_or] at hcs
      rw [List.cons_append, signAhead_cons]
      rintro (rfl | ⟨-, h⟩)
      · exact hcs.1 rfl
      · exact ih hcs.2 h

theorem outputSign?_isSome_iff {cs : List Char} :
    (outputSign? cs).isSome = true ↔ cs.head? = some '>' := by
  unfold outputSign?
  split
  · simp
  · simp
  · rename_i h1 h2
    cases cs with
    | nil => simp
    | cons c cs =>
        have hc : c ≠ '>' := fun h => h2 cs (h ▸ rfl)
        simp [hc]

/-- An operator is read where an input sign, a bar or an output sign is ahead. -/
theorem operator?_isSome_iff {c : Char} {cs : List Char} :
    (operator? (c :: cs)).isSome = true ↔ c = '<' ∨ c = '|' ∨ SignAhead (c :: cs) := by
  have hsign := @outputSign?_isSome_iff ((c :: cs).dropWhile Char.isDigit)
  unfold operator?
  cases h : outputSign? ((c :: cs).dropWhile Char.isDigit) with
  | some r =>
      -- With or without digits, an output operator stands at the head.
      have hahead : SignAhead (c :: cs) := hsign.1 (by simp [h])
      simp only [hahead, or_true, iff_true]
      split <;> rfl
  | none =>
      have hahead : ¬ SignAhead (c :: cs) := fun h' => by simpa [h] using hsign.2 h'
      simp only [hahead, or_false]
      split
      · rename_i heq
        simp_all
      · rename_i heq
        simp_all
      · rename_i h1 h2
        simp only [Option.isSome_none, Bool.false_eq_true, false_iff, not_or]
        exact ⟨fun hc => h1 cs (hc ▸ rfl), fun hc => h2 cs (hc ▸ rfl)⟩

theorem outputSign?_consumes {cs rest : List Char} {append : Bool}
    (h : outputSign? cs = some (append, rest)) : ∃ w, cs = w ++ rest := by
  unfold outputSign? at h
  split at h
  · cases h
    exact ⟨['>', '>'], rfl⟩
  · cases h
    exact ⟨['>'], rfl⟩
  · cases h

/-- An operator is no word, and what follows it is the rest of the text. -/
theorem operator?_consumes {cs rest : List Char} {token : Token}
    (h : operator? cs = some (token, rest)) :
    (∀ raw, token ≠ .word raw) ∧ ∃ w, cs = w ++ rest := by
  unfold operator? at h
  cases hsign : outputSign? (cs.dropWhile Char.isDigit) with
  | some r =>
      rcases r with ⟨append, tail⟩
      rcases outputSign?_consumes hsign with ⟨w, hw⟩
      have hcs : cs = cs.takeWhile Char.isDigit ++ w ++ tail := by
        rw [List.append_assoc, ← hw, List.takeWhile_append_dropWhile]
      simp only [hsign] at h
      split at h
      · cases h
        exact ⟨by simp, _, hcs⟩
      · cases h
        exact ⟨by simp, _, hcs⟩
  | none =>
      simp only [hsign] at h
      split at h
      · cases h
        exact ⟨by simp, ['<'], rfl⟩
      · cases h
        exact ⟨by simp, ['|'], rfl⟩
      · cases h

/-- A word ends at a blank or where an operator is ahead. -/
theorem endsWord_cons_iff {c : Char} {cs : List Char} :
    endsWord (c :: cs) = true ↔
      isBlank c = true ∨ c = '<' ∨ c = '|' ∨ SignAhead (c :: cs) := by
  rw [endsWord, Bool.or_eq_true, operator?_isSome_iff]
  simp

/-- A character that is no digit decides alone whether a word ends before it. -/
theorem endsWord_eq_false_of_char {c : Char} (hblank : isBlank c = false)
    (hdigit : c.isDigit = false) (hc : c ≠ '<' ∧ c ≠ '|' ∧ c ≠ '>') (rest : List Char) :
    endsWord (c :: rest) = false := by
  have hiff := @endsWord_cons_iff c rest
  rw [signAhead_cons] at hiff
  simpa [hblank, hdigit, hc] using hiff

/-! ## Runs of the word automaton -/

namespace Reading

/-- The state behind a run of characters, and what the run adds to the word. -/
def run : Reading → List Char → Reading × List Char
  | s, [] => (s, [])
  | s, c :: cs =>
      let tail := run (s.step c).1 cs
      (tail.1, (s.step c).2 ++ tail.2)

@[simp] theorem run_nil (s : Reading) : s.run [] = (s, []) := rfl

theorem run_cons (s : Reading) (c : Char) (cs : List Char) :
    s.run (c :: cs) = (((s.step c).1.run cs).1, (s.step c).2 ++ ((s.step c).1.run cs).2) := rfl

/-- A reading goes on from where the first text left it. -/
theorem run_append (s : Reading) (as bs : List Char) :
    s.run (as ++ bs) = (((s.run as).1.run bs).1, (s.run as).2 ++ ((s.run as).1.run bs).2) := by
  induction as generalizing s with
  | nil => simp
  | cons a as ih =>
      rw [List.cons_append, run_cons, run_cons, ih]
      simp

/-- In front of `rest`, no word ends before a character of the run. -/
def Unbroken : Reading → List Char → List Char → Prop
  | _, [], _ => True
  | s, c :: cs, rest =>
      (s.mayEnd && endsWord (c :: cs ++ rest)) = false ∧ Unbroken (s.step c).1 cs rest

/-- A reading is unbroken over two texts if it is over each of them. -/
theorem unbroken_append {s : Reading} {as bs rest : List Char} :
    s.Unbroken (as ++ bs) rest ↔ s.Unbroken as (bs ++ rest) ∧ (s.run as).1.Unbroken bs rest := by
  induction as generalizing s with
  | nil => simp [Unbroken]
  | cons a as ih =>
      simp only [List.cons_append, Unbroken, ih, run_cons, List.append_assoc, and_assoc]

/-- In front of `rest`, the lexer reads `w` as part of one word: it adds `out` to the word and leads
from the state `s` to the state `s'`. -/
structure Reads (s : Reading) (w out : List Char) (s' : Reading) (rest : List Char) : Prop where
  unbroken : s.Unbroken w rest
  run_eq : s.run w = (s', out)

/-- A character that closes a substitution leads back to the text around it. -/
theorem step_body_of_close {b : Body} {q : Quote} {c : Char} (h : (b.step c).depth = 0) :
    (Reading.body b q).step c = (.text q false, [c]) := by
  simp [step, h]

/-- Inside a body, characters are kept until it closes. -/
theorem step_body_of_open {b : Body} {q : Quote} {c : Char} (h : (b.step c).depth ≠ 0) :
    (Reading.body b q).step c = (.body (b.step c) q, [c]) := by
  simp [step, h]

namespace Reads

theorem nil {s : Reading} {rest : List Char} : Reads s [] [] s rest :=
  ⟨trivial, rfl⟩

/-- What is read in turn is read as a whole. -/
theorem append {s s₁ s₂ : Reading} {w₁ w₂ out₁ out₂ rest : List Char}
    (h₁ : Reads s w₁ out₁ s₁ (w₂ ++ rest)) (h₂ : Reads s₁ w₂ out₂ s₂ rest) :
    Reads s (w₁ ++ w₂) (out₁ ++ out₂) s₂ rest := by
  refine ⟨unbroken_append.2 ⟨h₁.unbroken, ?_⟩, ?_⟩
  · rw [h₁.run_eq]
    exact h₂.unbroken
  · rw [run_append, h₁.run_eq, h₂.run_eq]

/-- A character that does not end the word is read, and then the rest. -/
theorem cons {s s₁ s₂ : Reading} {c : Char} {w out₁ out₂ rest : List Char}
    (hend : (s.mayEnd && endsWord (c :: w ++ rest)) = false) (hstep : s.step c = (s₁, out₁))
    (h : Reads s₁ w out₂ s₂ rest) : Reads s (c :: w) (out₁ ++ out₂) s₂ rest := by
  refine ⟨⟨hend, ?_⟩, ?_⟩
  · rw [hstep]
    exact h.unbroken
  · rw [run_cons, hstep, h.run_eq]

/-- A character of a state in which no word ends. -/
theorem cons_inside {s s₁ s₂ : Reading} {c : Char} {w out₁ out₂ rest : List Char}
    (hend : s.mayEnd = false) (hstep : s.step c = (s₁, out₁))
    (h : Reads s₁ w out₂ s₂ rest) : Reads s (c :: w) (out₁ ++ out₂) s₂ rest :=
  cons (by simp [hend]) hstep h

/-- A single character of a state in which no word ends. -/
theorem inside {s s' : Reading} {c : Char} {out rest : List Char}
    (hend : s.mayEnd = false) (hstep : s.step c = (s', out)) : Reads s [c] out s' rest := by
  have h : Reads s [c] (out ++ []) s' rest := cons_inside hend hstep nil
  simpa using h

/-- The rest of a substitution is copied as it stands. -/
theorem body {b : Body} {q : Quote} {cs inner rest : List Char}
    (h : b.split? cs = some (inner, [])) : Reads (.body b q) cs cs (.text q false) rest := by
  induction cs generalizing b inner with
  | nil => simp [Body.split?] at h
  | cons c cs ih =>
      rw [Body.split?] at h
      by_cases hc : (b.step c).depth = 0
      · rw [if_pos hc] at h
        simp only [Option.some.injEq, Prod.mk.injEq] at h
        rcases h with ⟨-, rfl⟩
        exact inside rfl (step_body_of_close hc)
      · rw [if_neg hc] at h
        rcases Option.map_eq_some_iff.1 h with ⟨⟨i, r⟩, hr, he⟩
        rcases Prod.mk.inj he with ⟨-, rfl⟩
        exact cons_inside rfl (step_body_of_open hc) (ih hr)

end Reads

/-! ## Single characters -/

/-- A character that stands for itself under the quotes `q`. -/
def Inert (q : Quote) (c : Char) : Prop :=
  (c = '\\' → q = .single) ∧ q.toggle c = q ∧ c ≠ '$'

/-- An inert character is kept and changes nothing. -/
theorem step_inert {q : Quote} {dollar : Bool} {c : Char} (h : Inert q c)
    (hparen : dollar = true → c ≠ '(') : (Reading.text q dollar).step c = (.text q false, [c]) := by
  rcases h with ⟨hb, ht, hd⟩
  unfold step
  grind

/-- Outside single quotes a dollar sign may start something. -/
theorem step_dollar {q : Quote} {dollar : Bool} (hq : q ≠ .single) :
    (Reading.text q dollar).step '$' = (.text q true, ['$']) := by
  cases q <;> simp_all [step, Quote.toggle]

/-- A parenthesis behind such a dollar sign opens a body. -/
theorem step_substitution {q : Quote} :
    (Reading.text q true).step '(' = (.body .opened q, ['(']) := by
  simp [step]

/-- Between quotes no word ends. -/
theorem mayEnd_text_of_ne {q : Quote} {dollar : Bool} (hq : q ≠ .bare) :
    (Reading.text q dollar).mayEnd = false := by
  cases q <;> simp_all [mayEnd]

/-- Where a word stops: behind the last character, or before a blank or an operator. -/
def Stops (s : Reading) (rest : List Char) : Prop :=
  rest = [] ∨ (s.mayEnd = true ∧ endsWord rest = true)

end Reading

/-! ## Words -/

open Reading

theorem readWord_of_stops {s : Reading} {rest : List Char} (h : s.Stops rest) :
    readWord s rest = ([], rest) := by
  cases rest with
  | nil => rfl
  | cons c rest =>
      rcases h with h | ⟨hs, he⟩
      · cases h
      · simp [readWord, hs, he]

/-- The word reader gives out what a reading gives out, and goes on behind it. -/
theorem readWord_of_reads {s s' : Reading} {w out rest : List Char} (h : Reads s w out s' rest) :
    readWord s (w ++ rest) = (out ++ (readWord s' rest).1, (readWord s' rest).2) := by
  induction w generalizing s out with
  | nil =>
      rcases Prod.mk.inj h.run_eq with ⟨rfl, rfl⟩
      simp
  | cons c w ih =>
      have hrun := h.run_eq
      rw [run_cons] at hrun
      rcases Prod.mk.inj hrun with ⟨rfl, rfl⟩
      -- No word ends before `c`, so `readWord` takes it and goes on from the next state.
      have htail : Reads (s.step c).1 w ((s.step c).1.run w).2 ((s.step c).1.run w).1 rest :=
        ⟨h.unbroken.2, rfl⟩
      rw [List.cons_append, readWord, ← List.cons_append, h.unbroken.1]
      simp only [Bool.false_eq_true, if_false, ih htail, List.append_assoc]

/-- What the word reader takes is a reading that stops where the word does. -/
theorem exists_reads_of_readWord (s : Reading) (cs : List Char) :
    ∃ w s', cs = w ++ (readWord s cs).2 ∧ Reads s w (readWord s cs).1 s' (readWord s cs).2 ∧
      s'.Stops (readWord s cs).2 := by
  induction cs generalizing s with
  | nil => exact ⟨[], s, rfl, .nil, .inl rfl⟩
  | cons c cs ih =>
      rw [readWord]
      cases hend : s.mayEnd && endsWord (c :: cs) with
      | true =>
          -- The word ends here, and nothing more of it is read.
          rw [Bool.and_eq_true] at hend
          exact ⟨[], s, rfl, .nil, .inr hend⟩
      | false =>
          rcases ih (s.step c).1 with ⟨w, s', hcs, hread, hstop⟩
          have hend' : (s.mayEnd && endsWord (c :: w ++ (readWord (s.step c).1 cs).2)) = false := by
            rw [List.cons_append, ← hcs]
            exact hend
          exact ⟨c :: w, s', congrArg (c :: ·) hcs, .cons hend' rfl hread, hstop⟩

/-! ## Lexemes -/

theorem before_append (w rest : List Char) : before (w ++ rest) rest = w := by
  simp [before]

theorem lexFrom_nil (pos : Position) : lexFrom pos [] = [] := by
  rw [lexFrom]

/-- Blanks are passed over. -/
theorem lexFrom_blank {pos : Position} {c : Char} {cs : List Char} (h : isBlank c = true) :
    lexFrom pos (c :: cs) = lexFrom (pos.advance c) cs := by
  rw [lexFrom, if_pos h]

theorem isBlank_eq_false_of_operator? {c : Char} {cs : List Char}
    (h : (operator? (c :: cs)).isSome = true) : isBlank c = false := by
  rw [operator?_isSome_iff, signAhead_cons] at h
  rcases h with rfl | rfl | rfl | ⟨hdigit, -⟩
  · decide
  · decide
  · decide
  · have hspace : c ≠ ' ' := by
      rintro rfl
      exact absurd hdigit (by decide)
    have htab : c ≠ '\t' := by
      rintro rfl
      exact absurd hdigit (by decide)
    simp [isBlank, hspace, htab]

/-- An operator at the head of a text. -/
theorem lexFrom_operator {pos : Position} {w rest : List Char} {token : Token}
    (h : operator? (w ++ rest) = some (token, rest)) :
    lexFrom pos (w ++ rest) = ⟨token, pos, pos.past w⟩ :: lexFrom (pos.past w) rest := by
  cases w with
  | nil => exact absurd (length_operator?_lt h) (Nat.lt_irrefl _)
  | cons c w =>
      have hbefore := before_append (c :: w) rest
      rw [List.cons_append] at h hbefore ⊢
      have hblank : isBlank c = false :=
        isBlank_eq_false_of_operator? (Option.isSome_iff_exists.2 ⟨_, h⟩)
      rw [lexFrom, if_neg (by simp [hblank])]
      split
      · rename_i h'
        rw [h] at h'
        rcases Prod.mk.inj (Option.some.inj h') with ⟨rfl, rfl⟩
        simp only [hbefore]
      · rename_i h'
        rw [h] at h'
        cases h'

/-- The word read at a place where none ends, with its first character taken like the others. -/
theorem wordFrom_eq_readWord {c : Char} {cs : List Char} (h : endsWord (c :: cs) = false) :
    wordFrom c cs = readWord .fresh (c :: cs) := by
  rw [readWord, h]
  simp [wordFrom]

/-- A character that is neither a blank nor the start of an operator ends no word. -/
theorem endsWord_eq_false {c : Char} {cs : List Char} (hc : ¬ isBlank c = true)
    (hop : operator? (c :: cs) = none) : endsWord (c :: cs) = false := by
  simp [endsWord, hc, hop]

/-- A word is a reading from its first character on. -/
theorem exists_reads_wordFrom {c : Char} {cs : List Char} (h : endsWord (c :: cs) = false) :
    ∃ v s, c :: cs = v ++ (wordFrom c cs).2 ∧
      Reads .fresh v (wordFrom c cs).1 s (wordFrom c cs).2 ∧ s.Stops (wordFrom c cs).2 := by
  rw [wordFrom_eq_readWord h]
  exact exists_reads_of_readWord .fresh (c :: cs)

/-- Where no word ends, the next lexeme is the word read there. -/
theorem lexFrom_readWord {pos : Position} {c : Char} {cs : List Char}
    (h : endsWord (c :: cs) = false) :
    lexFrom pos (c :: cs) =
      let word := readWord .fresh (c :: cs)
      let stop := pos.past (before (c :: cs) word.2)
      if word.1.isEmpty then lexFrom stop word.2
      else ⟨.word (String.ofList word.1), pos, stop⟩ :: lexFrom stop word.2 := by
  have hends := h
  rw [endsWord, Bool.or_eq_false_iff] at h
  rcases h with ⟨hblank, hop⟩
  have hblank' : isBlank c = false := by simpa using hblank
  rw [lexFrom, if_neg (by simp [hblank'])]
  split
  · rename_i h'
    rw [h'] at hop
    cases hop
  · simp only [wordFrom_eq_readWord hends]

/-- A reading up to where it stops gives one word, or none if nothing is given out. -/
theorem lexFrom_of_reads {pos : Position} {w out rest : List Char} {s : Reading}
    (hw : w ≠ []) (h : Reads .fresh w out s rest) (hstop : s.Stops rest) :
    lexFrom pos (w ++ rest) =
      if out.isEmpty then lexFrom (pos.past w) rest
      else ⟨.word (String.ofList out), pos, pos.past w⟩ :: lexFrom (pos.past w) rest := by
  cases w with
  | nil => exact absurd rfl hw
  | cons c w =>
      have hends : endsWord (c :: (w ++ rest)) = false := by
        simpa [fresh, mayEnd] using h.unbroken.1
      have hword : readWord .fresh (c :: (w ++ rest)) = (out, rest) := by
        rw [← List.cons_append, readWord_of_reads h, readWord_of_stops hstop]
        simp
      have hbefore : before (c :: (w ++ rest)) rest = c :: w := before_append (c :: w) rest
      rw [List.cons_append, lexFrom_readWord hends]
      simp only [hword, hbefore]

/-- A word at the head of a text. -/
theorem lexFrom_word {pos : Position} {w out rest : List Char} {s : Reading}
    (hout : out ≠ []) (h : Reads .fresh w out s rest) (hstop : s.Stops rest) :
    lexFrom pos (w ++ rest) =
      ⟨.word (String.ofList out), pos, pos.past w⟩ :: lexFrom (pos.past w) rest := by
  have hw : w ≠ [] := by
    rintro rfl
    exact hout (Prod.mk.inj h.run_eq).2.symm
  rw [lexFrom_of_reads hw h hstop, if_neg (by simpa using hout)]

/-- The lexeme is a word that is read from a part of the text, between the places that it names. -/
def FoundIn (pos : Position) (cs : List Char) (lexeme : Lexeme) (raw : String) : Prop :=
  ∃ a w b s, cs = a ++ (w ++ b) ∧ lexeme.start = pos.past a ∧ lexeme.stop = pos.past (a ++ w) ∧
    Reads .fresh w raw.toList s b ∧ s.Stops b

/-- What is found in a text is found behind anything that stands before it. -/
theorem FoundIn.behind {pos : Position} {v cs : List Char} {lexeme : Lexeme} {raw : String}
    (h : FoundIn (pos.past v) cs lexeme raw) : FoundIn pos (v ++ cs) lexeme raw := by
  rcases h with ⟨a, w, b, s, rfl, hstart, hstop, hread⟩
  refine ⟨v ++ a, w, b, s, by simp, ?_, ?_, hread⟩
  · rw [hstart, Position.past_append]
  · rw [hstop, List.append_assoc, Position.past_append pos v]

/-- Each word among the lexemes was read somewhere in the text. -/
theorem foundIn_of_mem_lexFrom {pos : Position} {cs : List Char} {lexeme : Lexeme}
    {raw : String} (hmem : lexeme ∈ lexFrom pos cs) (hraw : lexeme.token = .word raw) :
    FoundIn pos cs lexeme raw := by
  fun_induction lexFrom pos cs with
  | case1 => cases hmem
  | case2 pos c cs hc ih =>
      have hbehind : FoundIn (pos.past [c]) cs lexeme raw := ih hmem
      exact hbehind.behind
  | case3 pos c cs hc token rest hop _ stop ih =>
      rcases operator?_consumes hop with ⟨hword, v, hv⟩
      have hstop : stop = pos.past v := by
        simp only [stop, hv, before_append]
      rw [hstop] at ih hmem
      rcases List.mem_cons.1 hmem with rfl | hmem
      · exact absurd hraw (hword raw)
      · rw [hv]
        exact (ih hmem).behind
  | case4 pos c cs hc hop _ stop text rest htext ih =>
      -- Only quotes were read: the word leaves no lexeme.
      rcases exists_reads_wordFrom (endsWord_eq_false hc hop) with ⟨v, s₀, hv, -, -⟩
      have hstop : stop = pos.past v := by
        simp only [stop]
        rw [hv, before_append]
      have hbehind : FoundIn stop (wordFrom c cs).2 lexeme raw := ih hmem
      rw [hstop] at hbehind
      rw [hv]
      exact hbehind.behind
  | case5 pos c cs hc hop _ stop text rest htext ih =>
      rcases exists_reads_wordFrom (endsWord_eq_false hc hop) with ⟨v, s₀, hv, hread, hend⟩
      have hstop : stop = pos.past v := by
        simp only [stop]
        rw [hv, before_append]
      rcases List.mem_cons.1 hmem with rfl | hmem
      · -- The word in front: nothing lies before it.
        simp only [Token.word.injEq] at hraw
        subst hraw
        rw [← String.toList_ofList (l := (wordFrom c cs).1)] at hread
        exact ⟨[], v, _, s₀, hv, rfl, hstop, hread, hend⟩
      · have hbehind : FoundIn stop (wordFrom c cs).2 lexeme raw := ih hmem
        rw [hstop] at hbehind
        rw [hv]
        exact hbehind.behind

end LineShell
