import LineShell.Token
import LineShell.Token.Quote

/-!
# Lexer — from characters to tokens

The lexer walks a line from left to right. Blanks separate words, operators stand for themselves,
and everything else is a word, read one character at a time by the automaton `Reading`.

- `operator?` : the operator at the head of a text, if there is one
- `Reading`   : the state inside a word
- `readWord`  : the rest of a word, with its quotes removed
- `lex`       : the lexemes of a line

Reading never fails. A dollar sign that a quote or a backslash protects is kept as
`protectedDollar`, so that the later search for expansions passes over it. A word that is empty
after its quotes are removed leaves no token.
-/

namespace LineShell

/-! ## Characters with a meaning -/

def isBlank (c : Char) : Bool :=
  c == ' ' || c == '\t'

def protectedDollar : Char := '\x00'

/-- Plain text keeps its characters, except that a dollar sign is marked. -/
def protect (c : Char) : Char :=
  if c = '$' then protectedDollar else c

/-- Undoes `protect`. -/
def unprotect (c : Char) : Char :=
  if c = protectedDollar then '$' else c

/-- Inside double quotes a backslash protects only these characters. -/
def isEscapable (c : Char) : Bool :=
  c == '"' || c == '$' || c == '\\'

/-! ## Operators -/

/-- An output operator at the head of a text: whether it appends, and what follows it. -/
def outputSign? : List Char → Option (Bool × List Char)
  | '>' :: '>' :: cs => some (true, cs)
  | '>' :: cs => some (false, cs)
  | _ => none

/-- The longest operator at the head of a text, and what follows it. A run of digits right before
an output operator belongs to it. -/
def operator? (cs : List Char) : Option (Token × List Char) :=
  match outputSign? (cs.dropWhile Char.isDigit) with
  | some (append, rest) =>
      let digits := cs.takeWhile Char.isDigit
      if digits.isEmpty then some (.output append, rest)
      else some (.descriptor (String.ofList digits) append, rest)
  | none =>
      match cs with
      | '<' :: rest => some (.input, rest)
      | '|' :: rest => some (.pipe, rest)
      | _ => none

/-- Outside quotes a word ends before a blank and before an operator. -/
def endsWord (cs : List Char) : Bool :=
  (cs.head?.any isBlank) || (operator? cs).isSome

theorem length_outputSign?_lt {cs rest : List Char} {append : Bool}
    (h : outputSign? cs = some (append, rest)) : rest.length < cs.length := by
  unfold outputSign? at h
  grind

/-- An operator takes at least one character. -/
theorem length_operator?_lt {cs rest : List Char} {token : Token}
    (h : operator? cs = some (token, rest)) : rest.length < cs.length := by
  have hd : (cs.dropWhile Char.isDigit).length ≤ cs.length :=
    (List.dropWhile_suffix Char.isDigit).length_le
  unfold operator? at h
  split at h
  · rename_i append tail heq
    have ht := length_outputSign?_lt heq
    simp only at h
    split at h <;> simp only [Option.some.injEq, Prod.mk.injEq] at h <;>
      (obtain ⟨_, rfl⟩ := h; omega)
  · grind

/-! ## Words -/

/-- The state inside a word. -/
inductive Reading where
  /-- In the text of the word; `dollar` holds right behind a dollar sign that may open an
  expansion. -/
  | text (quote : Quote) (dollar : Bool)
  /-- Behind a backslash. -/
  | escape (quote : Quote)
  /-- Inside a substitution that began under the quotes `outer`. -/
  | body (inner : Body) (outer : Quote)
  deriving DecidableEq, Repr

namespace Reading

def fresh : Reading := .text .bare false

def mayEnd : Reading → Bool
  | .text .bare _ => true
  | _ => false

/-- One character of a word: the next state and the characters it adds to the word. -/
def step : Reading → Char → Reading × List Char
  | .text q dollar, c =>
      if dollar ∧ c = '(' then (.body .opened q, ['('])
      else if c = '\\' ∧ q ≠ .single then (.escape q, [])
      else if q.toggle c ≠ q then (.text (q.toggle c) false, [])
      else if c = '$' then
        if q = .single then (.text q false, [protectedDollar]) else (.text q true, ['$'])
      else (.text q false, [c])
  | .escape q, c =>
      if q = .double ∧ ¬ isEscapable c then (.text q false, ['\\', c])
      else (.text q false, [protect c])
  | .body inner outer, c =>
      if (inner.step c).depth = 0 then (.text outer false, [c])
      else (.body (inner.step c) outer, [c])

end Reading

/-- The rest of a word in the given state, and what follows the word. -/
def readWord (state : Reading) : List Char → List Char × List Char
  | [] => ([], [])
  | c :: cs =>
      if state.mayEnd && endsWord (c :: cs) then ([], c :: cs)
      else
        let next := state.step c
        let tail := readWord next.1 cs
        (next.2 ++ tail.1, tail.2)

/-- What is left behind a word is the end of what was read. -/
theorem readWord_suffix (state : Reading) (cs : List Char) : (readWord state cs).2 <:+ cs := by
  induction cs generalizing state with
  | nil => simp [readWord]
  | cons c cs ih =>
      rw [readWord]
      split
      · exact List.suffix_refl _
      · exact (ih _).trans (List.suffix_cons c cs)

def wordFrom (c : Char) (cs : List Char) : List Char × List Char :=
  let first := Reading.fresh.step c
  let tail := readWord first.1 cs
  (first.2 ++ tail.1, tail.2)

/-- What is left behind a word is no longer than what was read. -/
theorem length_wordFrom_le (c : Char) (cs : List Char) :
    (wordFrom c cs).2.length ≤ cs.length :=
  (readWord_suffix _ cs).length_le

/-! ## Lines -/

def before (cs rest : List Char) : List Char :=
  cs.take (cs.length - rest.length)

/-- The lexemes of a text that starts at the given place. -/
def lexFrom (pos : Position) (cs : List Char) : List Lexeme :=
  match cs with
  | [] => []
  | c :: cs =>
      if isBlank c then lexFrom (pos.advance c) cs
      else
        match h : operator? (c :: cs) with
        | some (token, rest) =>
            have := length_operator?_lt h
            let stop := pos.past (before (c :: cs) rest)
            ⟨token, pos, stop⟩ :: lexFrom stop rest
        | none =>
            have := length_wordFrom_le c cs
            let stop := pos.past (before (c :: cs) (wordFrom c cs).2)
            let text := (wordFrom c cs).1
            let rest := lexFrom stop (wordFrom c cs).2
            if text.isEmpty then rest else ⟨.word (String.ofList text), pos, stop⟩ :: rest
termination_by cs.length
decreasing_by all_goals grind

def lex (cs : List Char) : List Lexeme :=
  lexFrom .start cs

def tokens (cs : List Char) : List Token :=
  (lex cs).map Lexeme.token

end LineShell
