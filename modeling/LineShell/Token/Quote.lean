/-!
# Quote — quoting state and the extent of a substitution

Reading a line means knowing at each character which quotes are open. This module holds

- `Quote` : the open quote, if any, and what a quote character does to it
- `Body`  : the state inside the text of a substitution, up to its closing parenthesis
- `substitutionBody` : the text of a substitution and what follows it

The text of a substitution is found without reading it: parentheses are counted outside quotes, and
quotes are counted afresh from the opening parenthesis.
-/

namespace LineShell

/-- The quotes that are open at a place in a line. -/
inductive Quote where
  | bare
  | single
  | double
  deriving DecidableEq, Repr

namespace Quote

/-- A quote character opens and closes its own quotes; inside the other quotes it is plain text. -/
def toggle : Quote → Char → Quote
  | .bare, '\'' => .single
  | .bare, '"' => .double
  | .single, '\'' => .bare
  | .double, '"' => .bare
  | q, _ => q

end Quote

/-! ## The text of a substitution -/

/-- A place inside the text of a substitution: how many parentheses are open, which quotes are open,
and whether the character before was an escaping backslash. -/
structure Body where
  depth : Nat
  quote : Quote
  escaped : Bool
  deriving DecidableEq, Repr

namespace Body

def opened : Body := ⟨1, .bare, false⟩

/-- One character inside the text of a substitution. The substitution is closed once no parenthesis
is open. -/
def step (b : Body) (c : Char) : Body :=
  if b.escaped then { b with escaped := false }
  else if c = '\\' ∧ b.quote ≠ .single then { b with escaped := true }
  else if b.quote = .bare ∧ c = '(' then { b with depth := b.depth + 1 }
  else if b.quote = .bare ∧ c = ')' then { b with depth := b.depth - 1 }
  else { b with quote := b.quote.toggle c }

/-- Splits at the closing parenthesis: the text before it and what follows it. -/
def split? (b : Body) : List Char → Option (List Char × List Char)
  | [] => none
  | c :: cs =>
      if (b.step c).depth = 0 then some ([], cs)
      else (split? (b.step c) cs).map fun r => (c :: r.1, r.2)

/-- A body, the character that closes it and the rest make up the text. -/
theorem eq_append_of_split? {b : Body} {cs inner rest : List Char}
    (h : b.split? cs = some (inner, rest)) : ∃ c, cs = inner ++ c :: rest := by
  induction cs generalizing b inner with
  | nil => simp [split?] at h
  | cons c cs ih =>
      rw [split?] at h
      split at h
      · simp only [Option.some.injEq, Prod.mk.injEq] at h
        exact ⟨c, by simp [← h.1, ← h.2]⟩
      · obtain ⟨⟨i, r⟩, hr, he⟩ := Option.map_eq_some_iff.1 h
        obtain ⟨rfl, rfl⟩ := Prod.mk.inj he
        obtain ⟨d, hd⟩ := ih hr
        exact ⟨d, by simp [hd]⟩

end Body

/-- The text of a substitution whose opening has been read, and what follows its closing
parenthesis. Without a closing parenthesis everything belongs to the substitution. -/
def substitutionBody (cs : List Char) : List Char × List Char :=
  (Body.opened.split? cs).getD (cs, [])

/-- A body and what is left behind it are no longer than the text. -/
theorem length_substitutionBody_le (cs : List Char) :
    (substitutionBody cs).1.length + (substitutionBody cs).2.length ≤ cs.length := by
  unfold substitutionBody
  cases h : Body.opened.split? cs with
  | none => simp
  | some r =>
      obtain ⟨c, hc⟩ := Body.eq_append_of_split? h
      simp only [Option.getD_some]
      have := congrArg List.length hc
      simp only [List.length_append, List.length_cons] at this
      omega

end LineShell
