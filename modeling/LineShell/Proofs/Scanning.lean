import LineShell.Token.Quote

/-!
# Scanning — where the text of a substitution ends

`Body.split?` looks for the closing parenthesis one character at a time. This file says which
character that is:

* `Body.split?_eq_some_iff` — the text before it keeps the scanner open, and it closes it;
* `Body.split?_append` — what follows the closing parenthesis does not matter;
* `Body.split?_eq_self_iff_balanced` — a text is found whole exactly when its parentheses are
  balanced, with quotes counted straight through it.

The last one is the measure for everything that is put between `$(` and `)`. A text that leaves the
scanner as it was is `Body.Neutral`, and so balanced.
-/

namespace LineShell
namespace Body

/-! ## Runs of the scanner -/

/-- The state behind a run of characters. -/
def run (b : Body) (cs : List Char) : Body :=
  cs.foldl step b

@[simp] theorem run_nil (b : Body) : b.run [] = b := rfl

@[simp] theorem run_cons (b : Body) (c : Char) (cs : List Char) :
    b.run (c :: cs) = (b.step c).run cs := rfl

/-- A body goes on from where the first text left it. -/
theorem run_append (b : Body) (as bs : List Char) : b.run (as ++ bs) = (b.run as).run bs := by
  simp [run, List.foldl_append]

/-- No character of the run closes the substitution. -/
def StaysOpen (b : Body) : List Char → Prop
  | [] => True
  | c :: cs => (b.step c).depth ≠ 0 ∧ StaysOpen (b.step c) cs

/-- A body stays open over two texts if it does over each of them. -/
theorem staysOpen_append {b : Body} {as bs : List Char} :
    b.StaysOpen (as ++ bs) ↔ b.StaysOpen as ∧ (b.run as).StaysOpen bs := by
  induction as generalizing b with
  | nil => simp [StaysOpen]
  | cons a as ih => simp [StaysOpen, ih, and_assoc]

/-- A body ends at the first character that closes it. -/
theorem split?_eq_some_iff {b : Body} {cs inner rest : List Char} :
    b.split? cs = some (inner, rest) ↔
      ∃ c, cs = inner ++ c :: rest ∧ b.StaysOpen inner ∧ ((b.run inner).step c).depth = 0 := by
  induction cs generalizing b inner with
  | nil => simp [split?]
  | cons d cs ih =>
      rw [split?]
      by_cases hd : (b.step d).depth = 0
      · -- The first character closes, so nothing lies before it.
        rw [if_pos hd]
        constructor
        · intro h
          simp only [Option.some.injEq, Prod.mk.injEq] at h
          rcases h with ⟨rfl, rfl⟩
          exact ⟨d, rfl, trivial, hd⟩
        · rintro ⟨c, hcs, hopen, -⟩
          cases inner with
          | nil => simp_all
          | cons i inner =>
              simp only [List.cons_append, List.cons.injEq] at hcs
              exact absurd (hcs.1 ▸ hd) hopen.1
      · -- The first character belongs to the text before it.
        rw [if_neg hd]
        constructor
        · intro h
          rcases Option.map_eq_some_iff.1 h with ⟨⟨i, r⟩, hr, he⟩
          rcases Prod.mk.inj he with ⟨rfl, rfl⟩
          rcases ih.1 hr with ⟨c, hcs, hopen, hc⟩
          exact ⟨c, by simp [hcs], ⟨hd, hopen⟩, hc⟩
        · rintro ⟨c, hcs, hopen, hc⟩
          cases inner with
          | nil =>
              simp only [List.nil_append, List.cons.injEq] at hcs
              exact absurd (hcs.1 ▸ hc) hd
          | cons i inner =>
              simp only [List.cons_append, List.cons.injEq] at hcs
              rcases hcs with ⟨rfl, rfl⟩
              exact Option.map_eq_some_iff.2 ⟨(inner, rest), ih.2 ⟨c, rfl, hopen.2, hc⟩, rfl⟩

/-- A body that does not close does not close at its first character, nor behind it. -/
theorem split?_cons_eq_none_iff {b : Body} {c : Char} {cs : List Char} :
    b.split? (c :: cs) = none ↔ (b.step c).depth ≠ 0 ∧ (b.step c).split? cs = none := by
  rw [split?]
  split
  · next hc => simp [hc]
  · next hc => simp [hc]

/-- What follows the closing parenthesis does not move it. -/
theorem split?_append {b : Body} {cs inner rest : List Char}
    (h : b.split? cs = some (inner, rest)) (more : List Char) :
    b.split? (cs ++ more) = some (inner, rest ++ more) := by
  rcases split?_eq_some_iff.1 h with ⟨c, rfl, hopen, hc⟩
  exact split?_eq_some_iff.2 ⟨c, by simp, hopen, hc⟩

/-! ## One step of the scanner -/

theorem step_escaped {b : Body} {c : Char} (h : b.escaped = true) :
    b.step c = { b with escaped := false } := by
  simp [step, h]

theorem step_backslash {b : Body} (he : b.escaped = false) (hq : b.quote ≠ .single) :
    b.step '\\' = { b with escaped := true } := by
  simp [step, he, hq]

theorem step_open {b : Body} (he : b.escaped = false) (hq : b.quote = .bare) :
    b.step '(' = { b with depth := b.depth + 1 } := by
  simp [step, he, hq]

theorem step_close {b : Body} (he : b.escaped = false) (hq : b.quote = .bare) :
    b.step ')' = { b with depth := b.depth - 1 } := by
  simp [step, he, hq]

/-- A parenthesis that counts. -/
def Counts (q : Quote) (c : Char) : Prop :=
  q = .bare ∧ (c = '(' ∨ c = ')')

/-- What a body does not count only moves its quotes. -/
theorem step_other {b : Body} {c : Char} (he : b.escaped = false)
    (hb : ¬ (c = '\\' ∧ b.quote ≠ .single)) (hc : ¬ Counts b.quote c) :
    b.step c = { b with quote := b.quote.toggle c } := by
  have hopen : ¬ (b.quote = .bare ∧ c = '(') := fun h => hc ⟨h.1, .inl h.2⟩
  have hclose : ¬ (b.quote = .bare ∧ c = ')') := fun h => hc ⟨h.1, .inr h.2⟩
  simp [step, he, hb, hopen, hclose]

/-- Only a parenthesis outside quotes and escapes closes an open substitution. -/
theorem step_depth_eq_zero {b : Body} {c : Char} (hb : b.depth ≠ 0)
    (h : (b.step c).depth = 0) :
    c = ')' ∧ b.quote = .bare ∧ b.escaped = false ∧ b.depth = 1 := by
  unfold step at h
  grind

/-- A body that stays open is open behind the text. -/
theorem depth_run_ne_zero {b : Body} {cs : List Char} (hb : b.depth ≠ 0) (h : b.StaysOpen cs) :
    (b.run cs).depth ≠ 0 := by
  induction cs generalizing b with
  | nil => exact hb
  | cons c cs ih => exact ih h.1 h.2

/-- The character that closes a substitution is a parenthesis. -/
theorem eq_append_close_of_split? {b : Body} {cs inner rest : List Char} (hb : b.depth ≠ 0)
    (h : b.split? cs = some (inner, rest)) : cs = inner ++ ')' :: rest := by
  rcases split?_eq_some_iff.1 h with ⟨c, hcs, hopen, hc⟩
  rcases step_depth_eq_zero (depth_run_ne_zero hb hopen) hc with ⟨rfl, -⟩
  exact hcs

/-! ## Balanced texts -/

/-- The characters of a text that stand outside quotes and escapes when quotes are counted straight
through it, whatever substitutions it holds. -/
def bareChars : Quote → Bool → List Char → List Char
  | _, _, [] => []
  | q, true, _ :: cs => bareChars q false cs
  | q, false, c :: cs =>
      if c = '\\' ∧ q ≠ .single then bareChars q true cs
      else if q = .bare then c :: bareChars (q.toggle c) false cs
      else bareChars (q.toggle c) false cs

/-- The quotes open behind a text when they are counted straight through it, and whether the text
ends in an escaping backslash. -/
def quotesAfter : Quote → Bool → List Char → Quote × Bool
  | q, escaped, [] => (q, escaped)
  | q, true, _ :: cs => quotesAfter q false cs
  | q, false, c :: cs =>
      if c = '\\' ∧ q ≠ .single then quotesAfter q true cs
      else quotesAfter (q.toggle c) false cs

/-- Behind `extra` open parentheses and under the quotes `q`, a text closes the parentheses it finds
open and those it opens, closes none too early, and leaves no quote and no escape open. -/
structure BalancedFrom (extra : Nat) (q : Quote) (escaped : Bool) (cs : List Char) : Prop where
  quotes : quotesAfter q escaped cs = (.bare, false)
  early : ∀ pre, pre <+: bareChars q escaped cs → pre.count ')' ≤ extra + pre.count '('
  total : (bareChars q escaped cs).count ')' = extra + (bareChars q escaped cs).count '('

/-- A text whose parentheses outside quotes are balanced and whose quotes are closed, with quotes
counted straight through it. -/
def Balanced (cs : List Char) : Prop :=
  BalancedFrom 0 .bare false cs

/-- Balance depends only on the quotes behind a text and the characters outside of them. -/
theorem balancedFrom_congr {extra : Nat} {q q' : Quote} {e e' : Bool} {cs cs' : List Char}
    (hq : quotesAfter q e cs = quotesAfter q' e' cs')
    (hb : bareChars q e cs = bareChars q' e' cs') :
    BalancedFrom extra q e cs ↔ BalancedFrom extra q' e' cs' := by
  constructor
  · intro h
    exact ⟨hq ▸ h.quotes, hb ▸ h.early, hb ▸ h.total⟩
  · intro h
    exact ⟨hq ▸ h.quotes, hb ▸ h.early, hb ▸ h.total⟩

/-- Nothing is balanced if nothing is open. -/
theorem balancedFrom_nil {extra : Nat} {q : Quote} {e : Bool} :
    BalancedFrom extra q e [] ↔ extra = 0 ∧ q = .bare ∧ e = false := by
  constructor
  · intro h
    have hq := h.quotes
    have ht := h.total
    simp only [quotesAfter, Prod.mk.injEq] at hq
    simp only [bareChars, List.count_nil, Nat.add_zero] at ht
    exact ⟨ht.symm, hq⟩
  · rintro ⟨rfl, rfl, rfl⟩
    exact ⟨rfl, by simp [bareChars], by simp [bareChars]⟩

theorem balancedFrom_escaped {extra : Nat} {q : Quote} {c : Char} {cs : List Char} :
    BalancedFrom extra q true (c :: cs) ↔ BalancedFrom extra q false cs :=
  balancedFrom_congr rfl rfl

theorem balancedFrom_backslash {extra : Nat} {q : Quote} {cs : List Char} (hq : q ≠ .single) :
    BalancedFrom extra q false ('\\' :: cs) ↔ BalancedFrom extra q true cs :=
  balancedFrom_congr (by simp [quotesAfter, hq]) (by simp [bareChars, hq])

/-- A character that is seen counts in front of every prefix of what follows it. -/
theorem balancedFrom_seen {extra : Nat} {c : Char} {cs : List Char} (hc : c ≠ '\\') :
    BalancedFrom extra .bare false (c :: cs) ↔
      quotesAfter (Quote.bare.toggle c) false cs = (.bare, false) ∧
      (∀ pre, pre <+: bareChars (Quote.bare.toggle c) false cs →
        (c :: pre).count ')' ≤ extra + (c :: pre).count '(') ∧
      (c :: bareChars (Quote.bare.toggle c) false cs).count ')' =
        extra + (c :: bareChars (Quote.bare.toggle c) false cs).count '(' := by
  have hq : quotesAfter .bare false (c :: cs) = quotesAfter (Quote.bare.toggle c) false cs := by
    simp [quotesAfter, hc]
  have hb : bareChars .bare false (c :: cs) = c :: bareChars (Quote.bare.toggle c) false cs := by
    simp [bareChars, hc]
  constructor
  · intro h
    refine ⟨hq ▸ h.quotes, ?_, hb ▸ h.total⟩
    intro pre hpre
    exact h.early (c :: pre) (by simpa [hb] using hpre)
  · rintro ⟨hquotes, hearly, htotal⟩
    refine ⟨hq ▸ hquotes, ?_, hb ▸ htotal⟩
    intro pre hpre
    rw [hb, List.prefix_cons_iff] at hpre
    rcases hpre with rfl | ⟨pre, rfl, hpre⟩
    · simp
    · exact hearly pre hpre

theorem balancedFrom_open {extra : Nat} {cs : List Char} :
    BalancedFrom extra .bare false ('(' :: cs) ↔ BalancedFrom (extra + 1) .bare false cs := by
  rw [balancedFrom_seen (by decide)]
  constructor
  · rintro ⟨hquotes, hearly, htotal⟩
    refine ⟨hquotes, ?_, ?_⟩
    · intro pre hpre
      have := hearly pre hpre
      simp at this
      omega
    · simp [Quote.toggle] at htotal
      omega
  · intro h
    refine ⟨h.quotes, ?_, ?_⟩
    · intro pre hpre
      have := h.early pre hpre
      simp
      omega
    · have := h.total
      simp [Quote.toggle]
      omega

/-- A closing sign needs one that is open. -/
theorem balancedFrom_close {extra : Nat} {cs : List Char} :
    BalancedFrom extra .bare false (')' :: cs) ↔
      extra ≠ 0 ∧ BalancedFrom (extra - 1) .bare false cs := by
  rw [balancedFrom_seen (by decide)]
  constructor
  · rintro ⟨hquotes, hearly, htotal⟩
    -- The prefix that ends with this parenthesis needs one that is open.
    have hextra : 1 ≤ extra := by simpa using hearly [] List.nil_prefix
    refine ⟨by omega, hquotes, ?_, ?_⟩
    · intro pre hpre
      have := hearly pre hpre
      simp at this
      omega
    · simp [Quote.toggle] at htotal
      omega
  · rintro ⟨hextra, h⟩
    refine ⟨h.quotes, ?_, ?_⟩
    · intro pre hpre
      have := h.early pre hpre
      simp
      omega
    · have := h.total
      simp [Quote.toggle]
      omega

/-- What does not count is passed over. -/
theorem balancedFrom_other {extra : Nat} {q : Quote} {c : Char} {cs : List Char}
    (hb : ¬ (c = '\\' ∧ q ≠ .single)) (hc : ¬ Counts q c) :
    BalancedFrom extra q false (c :: cs) ↔ BalancedFrom extra (q.toggle c) false cs := by
  by_cases hbare : q = .bare
  · -- The character is seen, but it is no parenthesis.
    subst hbare
    have hslash : c ≠ '\\' := fun h => hb ⟨h, by decide⟩
    have hopen : c ≠ '(' := fun h => hc ⟨rfl, .inl h⟩
    have hclose : c ≠ ')' := fun h => hc ⟨rfl, .inr h⟩
    rw [balancedFrom_seen hslash]
    simp only [List.count_cons_of_ne hopen, List.count_cons_of_ne hclose]
    constructor
    · rintro ⟨hquotes, hearly, htotal⟩
      exact ⟨hquotes, hearly, htotal⟩
    · intro h
      exact ⟨h.quotes, h.early, h.total⟩
  · have hq : quotesAfter q false (c :: cs) = quotesAfter (q.toggle c) false cs := by
      rw [quotesAfter, if_neg hb]
    exact balancedFrom_congr hq (by rw [bareChars, if_neg hb, if_neg hbare])

/-! ## The extent of a substitution -/

theorem split?_cons_eq_self {b : Body} {c : Char} {cs rest : List Char} :
    b.split? (c :: cs ++ ')' :: rest) = some (c :: cs, rest) ↔
      (b.step c).depth ≠ 0 ∧ (b.step c).split? (cs ++ ')' :: rest) = some (cs, rest) := by
  rw [List.cons_append, split?]
  by_cases hc : (b.step c).depth = 0
  · simp [hc]
  · rw [if_neg hc]
    constructor
    · intro h
      rcases Option.map_eq_some_iff.1 h with ⟨⟨i, r⟩, hr, he⟩
      simp only [Prod.mk.injEq, List.cons.injEq, true_and] at he
      rcases he with ⟨rfl, rfl⟩
      exact ⟨hc, hr⟩
    · rintro ⟨-, h⟩
      rw [h]
      rfl

theorem split?_nil_eq_self {b : Body} {rest : List Char} :
    b.split? (')' :: rest) = some ([], rest) ↔ (b.step ')').depth = 0 := by
  rw [split?]
  by_cases hc : (b.step ')').depth = 0
  · simp [hc]
  · simp [hc]

/-- A text is all of the body before a parenthesis exactly if it is balanced. -/
theorem split?_eq_self_iff_balancedFrom (b : Body) (extra : Nat) {cs rest : List Char}
    (hb : b.depth = extra + 1) :
    b.split? (cs ++ ')' :: rest) = some (cs, rest) ↔
      BalancedFrom extra b.quote b.escaped cs := by
  induction cs generalizing b extra with
  | nil =>
      rw [List.nil_append, split?_nil_eq_self, balancedFrom_nil]
      constructor
      · intro h
        rcases step_depth_eq_zero (by omega) h with ⟨-, hq, he, hd⟩
        exact ⟨by omega, hq, he⟩
      · rintro ⟨rfl, hq, he⟩
        rw [step_close he hq]
        simp [hb]
  | cons c cs ih =>
      -- Each kind of step changes `extra` as it changes the depth.
      rw [split?_cons_eq_self]
      cases he : b.escaped with
      | true =>
          rw [step_escaped he, balancedFrom_escaped, ih _ extra (by exact hb)]
          simp [hb]
      | false =>
          by_cases hbs : c = '\\' ∧ b.quote ≠ .single
          · rcases hbs with ⟨rfl, hq⟩
            rw [step_backslash he hq, balancedFrom_backslash hq, ih _ extra (by exact hb)]
            simp [hb]
          by_cases hc : Counts b.quote c
          · rcases hc with ⟨hq, rfl | rfl⟩
            · rw [step_open he hq, hq, balancedFrom_open, ih _ (extra + 1) (by simp [hb])]
              simp [he]
            · rw [step_close he hq, hq, balancedFrom_close]
              by_cases hextra : extra = 0
              · -- This parenthesis closes the substitution before the text ends.
                simp [hb, hextra]
              · rw [ih _ (extra - 1) (by simp [hb]; omega)]
                simp [hb, hextra, he]
          · rw [step_other he hbs hc, balancedFrom_other hbs hc, ih _ extra (by exact hb)]
            simp [hb, he]

/-- Between `$(` and `)` a text is found whole exactly when it is balanced. -/
theorem split?_eq_self_iff_balanced {cs rest : List Char} :
    opened.split? (cs ++ ')' :: rest) = some (cs, rest) ↔ Balanced cs :=
  split?_eq_self_iff_balancedFrom opened 0 rfl

/-! ## Texts that the scanner passes over -/

/-- A text that leaves the scanner as it was and closes nothing that is open. -/
def Neutral (cs : List Char) : Prop :=
  ∀ depth, depth ≠ 0 →
    StaysOpen ⟨depth, .bare, false⟩ cs ∧ run ⟨depth, .bare, false⟩ cs = ⟨depth, .bare, false⟩

/-- The characters that the scanner looks for. -/
def marks : List Char :=
  ['\\', '\'', '"', '(', ')']

namespace Neutral

theorem nil : Neutral [] :=
  fun _ _ => ⟨trivial, rfl⟩

/-- Neutral texts in turn are neutral. -/
theorem append {as bs : List Char} (ha : Neutral as) (hb : Neutral bs) : Neutral (as ++ bs) := by
  intro depth hdepth
  rcases ha depth hdepth with ⟨hopen, hrun⟩
  refine ⟨staysOpen_append.2 ⟨hopen, ?_⟩, ?_⟩
  · rw [hrun]
    exact (hb depth hdepth).1
  · rw [run_append, hrun]
    exact (hb depth hdepth).2

theorem char {c : Char} (hc : c ∉ marks) : Neutral [c] := by
  simp only [marks, List.mem_cons, List.not_mem_nil, or_false, not_or] at hc
  rcases hc with ⟨hslash, hsingle, hdouble, hopen, hclose⟩
  intro depth hdepth
  have hstep : step ⟨depth, .bare, false⟩ c = ⟨depth, .bare, false⟩ := by
    simp [step, hslash, hopen, hclose, Quote.toggle, hsingle, hdouble]
  simp [StaysOpen, hstep, hdepth]

/-- Characters of a class that holds none of the marks. -/
theorem chars {f : Char → Bool} {cs : List Char} (hf : marks.any f = false)
    (h : ∀ c ∈ cs, f c = true) : Neutral cs := by
  induction cs with
  | nil => exact nil
  | cons c cs ih =>
      have hunseen : c ∉ marks := by
        intro hmark
        exact List.any_eq_false.1 hf c hmark (h c (List.mem_cons_self ..))
      exact (char hunseen).append (ih fun d hd => h d (List.mem_cons_of_mem _ hd))

/-- A text in parentheses. -/
theorem enclosed {cs : List Char} (h : Neutral cs) : Neutral ('(' :: cs ++ [')']) := by
  intro depth hdepth
  have hopen : step ⟨depth, .bare, false⟩ '(' = ⟨depth + 1, .bare, false⟩ := step_open rfl rfl
  have hclose : step ⟨depth + 1, .bare, false⟩ ')' = ⟨depth, .bare, false⟩ := step_close rfl rfl
  rcases h (depth + 1) (Nat.succ_ne_zero depth) with ⟨hinner, hrun⟩
  constructor
  · rw [List.cons_append, StaysOpen, hopen, staysOpen_append, hrun]
    exact ⟨Nat.succ_ne_zero depth, hinner, by simp [StaysOpen, hclose, hdepth]⟩
  · rw [List.cons_append, run_cons, hopen, run_append, hrun]
    exact hclose

/-- Neutral texts are balanced. -/
theorem balanced {cs : List Char} (h : Neutral cs) : Balanced cs := by
  rcases h 1 Nat.one_ne_zero with ⟨hopen, hrun⟩
  have hclose : ((opened.run cs).step ')').depth = 0 := by
    rw [opened, hrun]
    decide
  have hsplit : opened.split? (cs ++ ')' :: []) = some (cs, []) :=
    split?_eq_some_iff.2 ⟨')', rfl, hopen, hclose⟩
  exact split?_eq_self_iff_balanced.1 hsplit

end Neutral
end Body

/-! ## Closed substitutions -/

/-- The scanner stops at a parenthesis exactly if what is before it is balanced. -/
theorem substitutionBody_eq_iff {cs rest : List Char} :
    substitutionBody (cs ++ ')' :: rest) = (cs, rest) ↔ Body.Balanced cs := by
  rw [← @Body.split?_eq_self_iff_balanced cs rest]
  unfold substitutionBody
  cases h : Body.opened.split? (cs ++ ')' :: rest) with
  | none =>
      -- Without a closing parenthesis the whole text is taken, which is longer than `cs`.
      simp
  | some r => simp

end LineShell
