import LineShell.Proofs.Grammar
import LineShell.Proofs.Stretches

/-!
# NormalForm — what every pipeline that was read looks like

A pipeline that comes out of the parser is tidy on every level: no word is empty, literal text is in
one piece and free of marks, names are names, and numbered descriptors are numbers.

* `Stage.Normal` — a command in normal form, leaving aside what its substitutions hold;
* `Pipeline.Holds` — the pipelines inside a pipeline, with the number of levels in between;
* `normal_spelled`, `normal_grouped` — words and stages are in normal form, whatever the texts of
  substitutions stand for;
* `parsed_is_normal` — every level of a pipeline that was read is in normal form.
-/

namespace LineShell

/-! ## Normal form -/

def Part.Normal : Part → Prop
  | .text s => s ≠ "" ∧ protectedDollar ∉ s.toList
  | .var name => isIdentifier name = true
  | .substitution _ => True

/-- Texts are in one piece, and each part is in normal form. -/
structure Word.Normal (w : Word) : Prop where
  joined : w.Joined
  parts : ∀ part ∈ w, part.Normal

/-- A numbered descriptor is written with digits and is no standard stream. -/
def Role.Normal : Role → Prop
  | .descriptor digits =>
      digits ≠ "" ∧ digits.toList.all Char.isDigit = true ∧
        digits ≠ "0" ∧ digits ≠ "1" ∧ digits ≠ "2"
  | _ => True

/-- The words of a command: its name, its arguments and the targets of its redirections. -/
def Stage.words (s : Command) : List Word :=
  s.name :: s.args ++ s.redirections.map Redirection.target

structure Stage.Normal (s : Command) : Prop where
  words : ∀ w ∈ s.words, w ≠ [] ∧ w.Normal
  roles : ∀ r ∈ s.redirections, r.role.Normal

/-- A pipeline that stands in the first one inside so many substitutions. -/
inductive Pipeline.Holds : Pipeline → Nat → Pipeline → Prop where
  | here (p : Pipeline) : Holds p 0 p
  | inside {p stages q : Pipeline} {s : Command} {w : Word} {depth : Nat} (hs : s ∈ p)
      (hw : w ∈ s.words) (hpart : .substitution stages ∈ w) (h : Holds stages depth q) :
      Holds p (depth + 1) q

/-! ## Tokens -/

/-- Each stretch of a line fits what is behind it. -/
theorem Cut.fits_of_mem {xs : List Stretch} (h : Cut xs) {x : Stretch} (hx : x ∈ xs) :
    ∃ rest, x.Fits rest := by
  induction xs with
  | nil => cases hx
  | cons y xs ih =>
      rcases List.mem_cons.1 hx with rfl | hx
      · exact ⟨_, h.1⟩
      · exact ih h.2 hx

/-- No word is empty, and descriptors have digits. -/
theorem word_or_operator_of_mem {cs : List Char} {t : Token} (h : t ∈ tokens cs) :
    (∃ raw, t = .word raw ∧ raw.toList ≠ []) ∨ t.IsOperator := by
  rcases exists_cut cs with ⟨xs, hcut, rfl⟩
  rw [tokens_text hcut] at h
  rcases List.mem_filterMap.1 h with ⟨x, hx, ht⟩
  rcases hcut.fits_of_mem hx with ⟨rest, hfits⟩
  cases hfits with
  | blank hblank => cases ht
  | operator hop hgrow =>
      cases ht
      exact .inr hop
  | @word v out _ _ hv hread hstop =>
      simp only [Stretch.ofWord] at ht
      split at ht
      · cases ht
      · rename_i hout
        cases ht
        refine .inl ⟨_, rfl, ?_⟩
        simpa using hout

/-- An operator gives a normal role. -/
theorem normal_of_redirects? {t : Token} (h : t.IsOperator) {role : Role} {append : Bool}
    (hsign : t.redirects? = some (role, append)) : role.Normal := by
  cases t with
  | word raw => cases hsign
  | pipe => cases hsign
  | output a =>
      cases hsign
      trivial
  | input =>
      cases hsign
      trivial
  | descriptor digits a =>
      cases hsign
      rw [Role.ofDigits]
      split
      · trivial
      split
      · trivial
      split
      · trivial
      -- The digits that name a stream of their own were the cases before.
      rename_i h0 h1 h2
      exact ⟨h.1, List.all_eq_true.2 h.2, h0, h1, h2⟩

/-! ## Words -/

/-- A text in front of a word is joined unless the word starts with a text. -/
theorem Word.joined_text_iff {s : String} {w : Word} :
    Word.Joined (.text s :: w) ↔ w.Joined ∧ ∀ t, w.head? ≠ some (.text t) := by
  cases w with
  | nil => simp [Word.Joined]
  | cons p w => cases p <;> simp [Word.Joined]

namespace Word.Normal

variable {inner : List Char → Pipeline} {segs : List Segment}

/-- A part other than text may stand before any normal word. -/
theorem cons {p : Part} {w : Word} (hw : w.Normal) (hp : p.Normal) (htext : ∀ s, p ≠ .text s) :
    Word.Normal (p :: w) := by
  refine ⟨?_, List.forall_mem_cons.2 ⟨hp, hw.parts⟩⟩
  cases p with
  | text s => exact absurd rfl (htext s)
  | var name => exact hw.joined
  | substitution stages => exact hw.joined

/-- A reference may stand before segments that make a normal word. -/
theorem var {name : List Char} (hname : isName name = true)
    (h : Word.Normal (segs.map (Segment.denote inner))) :
    Word.Normal ((Segment.var name :: segs).map (Segment.denote inner)) := by
  refine h.cons ?_ nofun
  rw [Segment.denote, Part.Normal, isIdentifier, String.toList_ofList]
  exact hname

/-- Literal text in front of a word joins the text at its head. -/
theorem pushText {cs : List Char} (hcs : cs ≠ []) (hmark : protectedDollar ∉ cs)
    (h : Word.Normal (segs.map (Segment.denote inner))) :
    Word.Normal ((Segment.pushText cs segs).map (Segment.denote inner)) := by
  have hpart : (Part.text (String.ofList cs)).Normal := ⟨by simpa using hcs, by simpa using hmark⟩
  have hparts := List.forall_mem_cons.2 ⟨hpart, h.parts⟩
  cases segs with
  | nil => exact ⟨trivial, hparts⟩
  | cons seg segs =>
      cases seg with
      | var name => exact ⟨Word.joined_text_iff.2 ⟨h.joined, by simp [Segment.denote]⟩, hparts⟩
      | body cs => exact ⟨Word.joined_text_iff.2 ⟨h.joined, by simp [Segment.denote]⟩, hparts⟩
      | text ds =>
          -- The word keeps its shape, and only its first text gets longer.
          rcases List.forall_mem_cons.1 h.parts with ⟨⟨-, hds⟩, hrest⟩
          have hmerged : (Part.text (String.ofList (cs ++ ds))).Normal := by
            refine ⟨by simp [hcs], ?_⟩
            simpa [hmark] using hds
          exact ⟨Word.joined_text_iff.2 (Word.joined_text_iff.1 h.joined),
            List.forall_mem_cons.2 ⟨hmerged, hrest⟩⟩

end Word.Normal

theorem unprotect_ne_protectedDollar (c : Char) : unprotect c ≠ protectedDollar := by
  rw [unprotect]
  split
  · decide
  · assumption

theorem Segment.pushText_ne_nil (cs : List Char) (segs : List Segment) : pushText cs segs ≠ [] := by
  unfold pushText
  split <;> simp

/-- A text that is not empty has at least one segment. -/
theorem split_ne_nil {cs : List Char} (h : cs ≠ []) : Segment.split cs ≠ [] := by
  fun_cases Segment.split cs with
  | case1 => exact absurd rfl h
  | case2 | case4 | case7 => exact List.cons_ne_nil _ _
  | case3 | case5 | case6 | case8 => exact Segment.pushText_ne_nil _ _

/-- Splitting leaves texts in one piece and without marks, also where an expansion is malformed. -/
theorem normal_split (inner : List Char → Pipeline) (cs : List Char) :
    Word.Normal ((Segment.split cs).map (Segment.denote inner)) := by
  fun_induction Segment.split cs with
  | case1 => exact ⟨trivial, by simp⟩
  | case2 cs _ ih => exact ih.cons trivial nofun
  | case3 cs hbrace ih => exact ih.pushText (by simp) (by decide)
  | case4 cs name rest hbrace _ hname ih => exact ih.var hname
  | case5 cs name rest hbrace _ hname ih =>
      -- What stands in the braces is no name and stays text, with its marks undone.
      refine ih.pushText (by simp) ?_
      have hmark : ∀ c ∈ name, unprotect c ≠ protectedDollar := fun c _ =>
        unprotect_ne_protectedDollar c
      simpa [protectedDollar] using hmark
  | case6 cs hparen hbrace name hname ih => exact ih.pushText (by simp) (by decide)
  | case7 cs hparen hbrace name hname ih =>
      exact ih.var (isName_leadingName (by simpa [name] using hname))
  | case8 c cs _ _ _ ih =>
      exact ih.pushText (by simp) (by simp [(unprotect_ne_protectedDollar c).symm])

/-- The word of a token is in normal form, whatever the texts of its substitutions stand for. -/
theorem normal_spelled (inner : List Char → Pipeline) {raw : String} (h : raw.toList ≠ []) :
    spelled inner raw ≠ [] ∧ (spelled inner raw).Normal := by
  refine ⟨?_, normal_split inner raw.toList⟩
  simpa [spelled] using split_ne_nil h

/-! ## Stages -/

/-- A token between bars is a token of the line. -/
theorem mem_of_mem_splitOn {ts seg : List Token} {t : Token} (hseg : seg ∈ ts.splitOn .pipe)
    (ht : t ∈ seg) : t ∈ ts := by
  induction ts generalizing seg with
  | nil =>
      rw [List.splitOn_nil, List.mem_singleton] at hseg
      rwa [hseg] at ht
  | cons u ts ih =>
      rw [List.splitOn_cons_eq_if_modifyHead] at hseg
      split at hseg
      · rcases List.mem_cons.1 hseg with rfl | hseg
        · cases ht
        · exact List.mem_cons_of_mem _ (ih hseg ht)
      · -- `u` is no bar and joins the first segment.
        cases hsplit : ts.splitOn .pipe with
        | nil => exact absurd hsplit (List.splitOn_ne_nil _ _)
        | cons first others =>
            rw [hsplit, List.modifyHead_cons] at hseg
            rcases List.mem_cons.1 hseg with rfl | hseg
            · rcases List.mem_cons.1 ht with rfl | ht
              · exact List.mem_cons_self ..
              · exact List.mem_cons_of_mem _ (ih (by simp [hsplit]) ht)
            · exact List.mem_cons_of_mem _ (ih (by simp [hsplit, hseg]) ht)

/-- A signed word and its sign are tokens of the line. -/
theorem mem_signedWords {ts : List Token} {x : SignedWord} (hx : x ∈ signedWords none ts) :
    .word x.raw ∈ ts ∧ ∀ sign, x.sign = some sign → ∃ t ∈ ts, t.redirects? = some sign := by
  rcases List.mem_filterMap.1 hx with ⟨⟨t, sign⟩, hmem, heq⟩
  rcases List.of_mem_zip hmem with ⟨ht, hsign⟩
  cases t with
  | word raw =>
      cases heq
      refine ⟨ht, ?_⟩
      rintro sign rfl
      simpa using hsign
  | _ => cases heq

/-- A plain word is a token of the line. -/
theorem mem_of_mem_plain {ts : List Token} {raw : String}
    (h : raw ∈ (signedWords none ts).filterMap SignedWord.plain?) : .word raw ∈ ts := by
  rcases List.mem_filterMap.1 h with ⟨x, hx, hplain⟩
  simp only [SignedWord.plain?, Option.ite_none_right_eq_some, Option.some.injEq] at hplain
  exact hplain.2 ▸ (mem_signedWords hx).1

section Origin

variable {word : String → Word} {ts : List Token} {s : Command}

/-- A redirection has its target and its sign from the line. -/
theorem mem_of_mem_redirections {r : Redirection Word}
    (h : r ∈ (signedWords none ts).filterMap (SignedWord.redirection? word)) :
    (∃ raw, .word raw ∈ ts ∧ r.target = word raw) ∧
      ∃ t ∈ ts, t.redirects? = some (r.role, r.append) := by
  rcases List.mem_filterMap.1 h with ⟨x, hx, hr⟩
  rcases Option.map_eq_some_iff.1 hr with ⟨⟨role, append⟩, hsign, rfl⟩
  rcases mem_signedWords hx with ⟨hraw, hop⟩
  exact ⟨⟨x.raw, hraw, rfl⟩, hop _ hsign⟩

/-- What stands in a stage comes from its tokens. -/
theorem mem_of_stage? (hs : stage? word ts = some s) :
    (∀ w ∈ s.words, ∃ raw, .word raw ∈ ts ∧ w = word raw) ∧
    ∀ r ∈ s.redirections, ∃ t ∈ ts, t.redirects? = some (r.role, r.append) := by
  rw [stage?] at hs
  split at hs
  · cases hs
  rename_i name args hplain
  cases hs
  -- The words of the stage are plain ones, and its redirections the last of each role.
  have hwords : ∀ raw ∈ name :: args, .word raw ∈ ts := by
    intro raw hraw
    exact mem_of_mem_plain (hplain ▸ hraw)
  have hredirections : ∀ r ∈ Redirection.lastOfEach
      ((signedWords none ts).filterMap (SignedWord.redirection? word)),
      (∃ raw, .word raw ∈ ts ∧ r.target = word raw) ∧
        ∃ t ∈ ts, t.redirects? = some (r.role, r.append) := by
    intro r hr
    rcases Redirection.mem_lastOfEach_iff.1 hr with ⟨front, back, hlist, -⟩
    exact mem_of_mem_redirections (by simp [hlist])
  refine ⟨?_, fun r hr => (hredirections r hr).2⟩
  intro w hw
  rcases List.mem_append.1 hw with hw | hw
  · have hw : w ∈ (name :: args).map word := hw
    rcases List.mem_map.1 hw with ⟨raw, hraw, rfl⟩
    exact ⟨raw, hwords raw hraw, rfl⟩
  · rcases List.mem_map.1 hw with ⟨r, hr, rfl⟩
    exact (hredirections r hr).1

/-- All words and signs of a stage are from the line. -/
theorem mem_of_mem_grouped (hs : s ∈ grouped word ts) :
    (∀ w ∈ s.words, ∃ raw, .word raw ∈ ts ∧ w = word raw) ∧
    ∀ r ∈ s.redirections, ∃ t ∈ ts, t.redirects? = some (r.role, r.append) := by
  rcases List.mem_filterMap.1 hs with ⟨seg, hseg, hstage⟩
  rcases mem_of_stage? hstage with ⟨hwords, hroles⟩
  refine ⟨?_, ?_⟩
  · intro w hw
    rcases hwords w hw with ⟨raw, hraw, rfl⟩
    exact ⟨raw, mem_of_mem_splitOn hseg hraw, rfl⟩
  · intro r hr
    rcases hroles r hr with ⟨t, ht, hsign⟩
    exact ⟨t, mem_of_mem_splitOn hseg ht, hsign⟩

end Origin

/-- Grouped tokens of a line make normal stages, whatever their inner texts mean. -/
theorem normal_grouped (inner : List Char → Pipeline) (cs : List Char) {s : Command}
    (hs : s ∈ grouped (spelled inner) (tokens cs)) : s.Normal := by
  rcases mem_of_mem_grouped hs with ⟨hwords, hroles⟩
  refine ⟨?_, ?_⟩
  · intro w hw
    rcases hwords w hw with ⟨raw, hraw, rfl⟩
    rcases word_or_operator_of_mem hraw with ⟨raw', heq, hne⟩ | hop
    · cases heq
      exact normal_spelled inner hne
    · exact hop.elim
  · intro r hr
    rcases hroles r hr with ⟨t, ht, hsign⟩
    rcases word_or_operator_of_mem ht with ⟨raw, rfl, -⟩ | hop
    · cases hsign
    · exact normal_of_redirects? hop hsign

/-! ## Levels -/

/-- A substitution in the stages of a text has its own text in a word there. -/
theorem inner_of_mem_grouped {inner : List Char → Pipeline} {cs : List Char} {s : Command}
    {w : Word} {stages : Pipeline} (hs : s ∈ grouped (spelled inner) (tokens cs)) (hw : w ∈ s.words)
    (hpart : .substitution stages ∈ w) : ∃ found, Inner cs found ∧ stages = inner found := by
  rcases (mem_of_mem_grouped hs).1 w hw with ⟨raw, hraw, rfl⟩
  rcases List.mem_map.1 hpart with ⟨seg, hseg, hdenote⟩
  cases seg with
  | text ds => cases hdenote
  | var name => cases hdenote
  | body found =>
      cases hdenote
      exact ⟨found, ⟨raw, hraw, hseg⟩, rfl⟩

/-- A pipeline inside the pipeline of a text is that of a text inside the text. -/
theorem exists_nested_of_holds {n depth : Nat} {cs : List Char} {q : Pipeline}
    (hcs : GrammaticalWithin n cs) (hq : (groupedWithin n cs).Holds depth q) :
    ∃ found, Nested cs depth found ∧ q = groupedWithin (n - depth) found := by
  generalize hp : groupedWithin n cs = p at hq
  induction hq generalizing n cs with
  | here p => exact ⟨cs, .here cs, hp.symm⟩
  | inside hs hw hpart _ ih =>
      subst hp
      cases n with
      | zero =>
          -- No level is left, and a grammatical text has no substitution then.
          rcases inner_of_mem_grouped hs hw hpart with ⟨found, hinner, -⟩
          exact absurd hinner ((grammaticalWithin_zero_iff.1 hcs).2 found)
      | succ n =>
          rcases inner_of_mem_grouped hs hw hpart with ⟨found, hinner, rfl⟩
          have hfound := (grammaticalWithin_succ_iff.1 hcs).2 found hinner
          rcases ih hfound rfl with ⟨deeper, hnested, rfl⟩
          exact ⟨deeper, .inside hinner hnested, by rw [Nat.succ_sub_succ]⟩

/-- At every depth, grouped tokens make normal stages. -/
theorem normal_groupedWithin (n : Nat) (cs : List Char) : ∀ s ∈ groupedWithin n cs, s.Normal := by
  intro s hs
  cases n with
  | zero => exact normal_grouped _ cs hs
  | succ n => exact normal_grouped _ cs hs

/-- A pipeline that was read is in normal form on every level, and has at most as many levels as the
parser goes down. -/
theorem parsed_is_normal {line : String} {p : Pipeline} (hp : Pipeline.parse line = .ok p)
    {depth : Nat} {q : Pipeline} (hq : p.Holds depth q) :
    depth ≤ maxNesting ∧ ∀ s ∈ q, s.Normal := by
  rcases parseWithin_eq_ok_iff.1 hp with ⟨hgrammatical, rfl⟩
  rcases exists_nested_of_holds hgrammatical hq with ⟨found, hnested, rfl⟩
  exact ⟨(hgrammatical depth found hnested).1, normal_groupedWithin _ found⟩

/-- The stages of `ls 03> f`. -/
def listingTo03 : Pipeline :=
  [⟨[.text "ls"], [], [⟨.descriptor "03", false, [.text "f"]⟩]⟩]

/-- A protected dollar sign, a reference that is none and a substitution in one word. -/
theorem malformed_reference_is_normal :
    Pipeline.parse "echo \\$${2}$(ls 03> f)" =
        .ok [⟨[.text "echo"], [[.text "$${2}", .substitution listingTo03]], []⟩] ∧
      1 ≤ maxNesting ∧ ∀ s ∈ listingTo03, s.Normal := by
  have hparse : Pipeline.parse "echo \\$${2}$(ls 03> f)" =
      .ok [⟨[.text "echo"], [[.text "$${2}", .substitution listingTo03]], []⟩] := by
    with_unfolding_all rfl
  have hword : Part.substitution listingTo03 ∈ [Part.text "$${2}", .substitution listingTo03] := by
    simp
  refine ⟨hparse, parsed_is_normal hparse (.inside (List.mem_singleton.2 rfl) ?_ hword (.here _))⟩
  simp [Stage.words]

end LineShell
