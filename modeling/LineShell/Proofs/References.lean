import LineShell.Proofs.Chunks

/-!
# References — how a word is taken apart at its dollar signs

The text of a word is scanned from left to right. At each place one passage is taken: a character, a
variable, braces up to the first one that closes, or a dollar sign that begins nothing of that kind.
What follows a passage decides how far it goes, and there is only one way to scan a text.

* `Passage` — the passages, with their spelling `Passage.written` and the text that may follow,
  `Passage.Fits`;
* `Passage.next?` — the passage at the head of a text, as `Passage.next?_of_fits` and
  `Passage.fits_of_next?` say;
* `Scans`, `exists_scans`, `Scans.unique` — a text taken apart from left to right;
* `readParts_of_scans` — the word that is read has the parts of the passages, with neighbouring
  texts joined;
* `Word.WrittenAs`, `Scans.writtenAs` — nothing is lost;
* `word_keeps_text_and_references` — all of it, for words without substitutions.
-/

namespace LineShell

/-! ## Passages -/

/-- What a scan takes in one go. -/
inductive Passage where
  /-- A character other than a dollar sign. -/
  | plain (c : Char)
  /-- A dollar sign that begins no reference. -/
  | dollar
  /-- A variable named without braces. -/
  | bare (name : List Char)
  /-- A variable named in braces. -/
  | braced (name : List Char)
  /-- Braces around something that is no name. -/
  | malformed (inner : List Char)
  deriving DecidableEq, Repr

namespace Passage

/-- A passage as it stands in the text of a word. -/
def written : Passage → List Char
  | plain c => [c]
  | dollar => ['$']
  | bare name => '$' :: name
  | braced name => '$' :: '{' :: name ++ ['}']
  | malformed inner => '$' :: '{' :: inner ++ ['}']

/-- The part that a passage stands for. -/
def part : Passage → Part
  | plain c => .text (String.singleton (unprotect c))
  | dollar => .text "$"
  | bare name => .var (String.ofList name)
  | braced name => .var (String.ofList name)
  | malformed inner => .text (String.ofList (('$' :: '{' :: inner ++ ['}']).map unprotect))

/-- The passage is what it is, and goes as far as it goes, if this text follows it. -/
def Fits (rest : List Char) : Passage → Prop
  | plain c => c ≠ '$'
  | dollar =>
      (∀ c ∈ rest.head?, isNameStart c = false) ∧ ∀ behind, rest = '{' :: behind → '}' ∉ behind
  | bare name => isName name = true ∧ ∀ c ∈ rest.head?, isNameRest c = false
  | braced name => isName name = true
  | malformed inner => isName inner = false ∧ '}' ∉ inner

/-- The passage at the head of a text, and the rest. -/
def next? : List Char → Option (Passage × List Char)
  | [] => none
  | '$' :: '{' :: cs =>
      match Segment.braced? cs with
      | some (inner, rest) => some (if isName inner then braced inner else malformed inner, rest)
      | none => some (dollar, '{' :: cs)
  | '$' :: cs =>
      if leadingName cs = [] then some (dollar, cs)
      else some (bare (leadingName cs), cs.drop (leadingName cs).length)
  | c :: cs => some (plain c, cs)

end Passage

/-! ## Names at the head of a text -/

/-- No name leads a text that does not start with a name character. -/
theorem leadingName_eq_nil_iff {cs : List Char} :
    leadingName cs = [] ↔ ∀ c ∈ cs.head?, isNameStart c = false := by
  cases cs with
  | nil => simp [leadingName]
  | cons c cs =>
      rw [leadingName]
      split
      · next hc => simp [hc]
      · next hc => simpa using hc

/-- A text that begins with a name does not begin with a character that begins no name. -/
theorem append_ne_cons_of_isName {name : List Char} {c : Char} (h : isName name = true)
    (hc : isNameStart c = false) (rest behind : List Char) : name ++ rest ≠ c :: behind := by
  cases name with
  | nil => cases h
  | cons d name =>
      intro heq
      rw [isName, (List.cons.inj heq).1, hc] at h
      cases h

/-- A name is found whole if no more of it follows. -/
theorem leadingName_append {name rest : List Char} (h : isName name = true)
    (hrest : ∀ c ∈ rest.head?, isNameRest c = false) : leadingName (name ++ rest) = name := by
  cases name with
  | nil => cases h
  | cons c name =>
      rw [isName, Bool.and_eq_true] at h
      have hall : ∀ d ∈ name, isNameRest d = true := List.all_eq_true.1 h.2
      have hstop : rest.takeWhile isNameRest = [] := by
        cases rest with
        | nil => rfl
        | cons d rest => rw [List.takeWhile_cons, hrest d rfl]; rfl
      rw [List.cons_append, leadingName, if_pos h.1, List.takeWhile_append_of_pos hall, hstop,
        List.append_nil]

/-- No more of the name follows the longest name at the head of a text. -/
theorem head?_drop_leadingName {cs : List Char} (h : leadingName cs ≠ []) :
    ∀ c ∈ (cs.drop (leadingName cs).length).head?, isNameRest c = false := by
  cases cs with
  | nil => exact (h rfl).elim
  | cons c cs =>
      rw [leadingName] at h ⊢
      split at h
      · next hc =>
        have hrest : cs.drop (cs.takeWhile isNameRest).length = cs.dropWhile isNameRest := by
          have hdrop := @List.drop_left _ (cs.takeWhile isNameRest) (cs.dropWhile isNameRest)
          rwa [List.takeWhile_append_dropWhile] at hdrop
        rw [if_pos hc, List.length_cons, List.drop_succ_cons, hrest]
        intro d hd
        have hhead := List.head?_dropWhile_not isNameRest cs
        rw [hd] at hhead
        exact hhead
      · exact (h rfl).elim

/-- Braces that never close are no reference. -/
theorem braced?_eq_none_iff {cs : List Char} : Segment.braced? cs = none ↔ '}' ∉ cs := by
  constructor
  · intro hnone hmem
    obtain ⟨name, rest, hcs, hname⟩ := List.eq_append_cons_of_mem hmem
    rw [braced?_eq_some_iff.2 ⟨hcs, hname⟩] at hnone
    cases hnone
  · intro hmem
    cases hbraced : Segment.braced? cs with
    | none => rfl
    | some r =>
        rw [(braced?_eq_some_iff.1 hbraced).1] at hmem
        exact (hmem (by simp)).elim

/-! ## The passage at the head -/

namespace Passage

section Braces

variable (inner rest : List Char)

theorem written_braced_append :
    (braced inner).written ++ rest = '$' :: '{' :: (inner ++ '}' :: rest) := by
  simp [written]

theorem written_malformed_append :
    (malformed inner).written ++ rest = '$' :: '{' :: (inner ++ '}' :: rest) := by
  simp [written]

end Braces

/-- What is in braces is a reference if it is a name, and malformed otherwise. -/
theorem next?_braces {ds rest inner : List Char} (h : Segment.braced? ds = some (inner, rest)) :
    next? ('$' :: '{' :: ds) = some (if isName inner then braced inner else malformed inner,
      rest) := by
  rw [next?, h]

/-- A dollar sign without a brace takes the longest name, or stands for itself. -/
theorem next?_dollar {cs : List Char} (h : ∀ ds, cs ≠ '{' :: ds) :
    next? ('$' :: cs) =
      if leadingName cs = [] then some (dollar, cs)
      else some (bare (leadingName cs), cs.drop (leadingName cs).length) := by
  rw [next?]
  exact h

/-- A dollar sign in front of a name begins a variable. -/
theorem exists_next?_bare {c : Char} (hc : isNameStart c = true) (rest : List Char) :
    ∃ name behind, next? ('$' :: c :: rest) = some (bare name, behind) := by
  have hbrace : ∀ ds, c :: rest ≠ '{' :: ds := by
    intro ds hds
    rw [(List.cons.inj hds).1] at hc
    cases hc
  have hname : leadingName (c :: rest) ≠ [] := by
    intro hnil
    have hstart := leadingName_eq_nil_iff.1 hnil c rfl
    rw [hc] at hstart
    cases hstart
  exact ⟨_, _, by rw [next?_dollar hbrace, if_neg hname]⟩

/-- A passage that fits is the next one. -/
theorem next?_of_fits {s : Passage} {rest : List Char} (h : s.Fits rest) :
    next? (s.written ++ rest) = some (s, rest) := by
  cases s with
  | plain c =>
      rw [written, List.singleton_append, next?]
      · exact fun _ hc => absurd hc h
      · exact h
  | dollar =>
      rw [written, List.singleton_append]
      by_cases hbrace : ∃ ds, rest = '{' :: ds
      · obtain ⟨ds, rfl⟩ := hbrace
        rw [next?, braced?_eq_none_iff.2 (h.2 ds rfl)]
      · rw [next?_dollar fun ds hds => hbrace ⟨ds, hds⟩, if_pos (leadingName_eq_nil_iff.2 h.1)]
  | bare name =>
      have hname : leadingName (name ++ rest) = name := leadingName_append h.1 h.2
      have hne : name ≠ [] := by
        rintro rfl
        cases h.1
      have hbrace : ∀ ds, name ++ rest ≠ '{' :: ds := append_ne_cons_of_isName h.1 (by decide) rest
      rw [written, List.cons_append, next?_dollar hbrace, hname, if_neg hne, List.drop_left]
  | braced name =>
      have hname : isName name = true := h
      have hbraced : Segment.braced? (name ++ '}' :: rest) = some (name, rest) :=
        braced?_eq_some_iff.2 ⟨rfl, not_mem_of_isName h (by decide)⟩
      rw [written_braced_append, next?_braces hbraced, if_pos hname]
  | malformed inner =>
      -- The braces end at the first one that closes, whatever is in between.
      have hbraced : Segment.braced? (inner ++ '}' :: rest) = some (inner, rest) :=
        braced?_eq_some_iff.2 ⟨rfl, h.2⟩
      rw [written_malformed_append, next?_braces hbraced, if_neg (by simp [h.1])]

/-- The next passage fits. -/
theorem fits_of_next? {cs rest : List Char} {s : Passage} (h : next? cs = some (s, rest)) :
    cs = s.written ++ rest ∧ s.Fits rest := by
  unfold next? at h
  split at h
  · cases h
  · next ds =>
    -- Behind an opening brace all turns on whether it is closed.
    cases hbraced : Segment.braced? ds with
    | none =>
        rw [hbraced] at h
        cases h
        refine ⟨rfl, by simp [isNameStart], fun behind hbehind => ?_⟩
        rw [← (List.cons.inj hbehind).2]
        exact braced?_eq_none_iff.1 hbraced
    | some r =>
        rcases r with ⟨inner, behind⟩
        obtain ⟨rfl, hinner⟩ := braced?_eq_some_iff.1 hbraced
        rw [hbraced] at h
        cases h
        by_cases hvalid : isName inner = true
        · simp [hvalid, written, Fits]
        · simp [hvalid, written, Fits, hinner]
  · next cs hbrace =>
    split at h
    · next hname =>
      cases h
      exact ⟨rfl, leadingName_eq_nil_iff.1 hname, fun behind hcs => (hbrace _ hcs).elim⟩
    · next hname =>
      cases h
      have hcs : leadingName cs ++ cs.drop (leadingName cs).length = cs :=
        List.prefix_iff_eq_append.1 (leadingName_isPrefix cs)
      exact ⟨congrArg ('$' :: ·) hcs.symm, isName_leadingName hname, head?_drop_leadingName hname⟩
  · next c cs _ hc =>
    cases h
    exact ⟨rfl, hc⟩

theorem eq_nil_of_next? {cs : List Char} (h : next? cs = none) : cs = [] := by
  unfold next? at h
  split at h
  · rfl
  · split at h <;> cases h
  · split at h <;> cases h
  · cases h

theorem length_written_pos (s : Passage) : 0 < s.written.length := by
  cases s <;> simp [written]

end Passage

/-! ## Scans -/

/-- The text is taken apart into passages, from left to right. -/
inductive Scans : List Char → List Passage → Prop
  | done : Scans [] []
  | step {cs rest : List Char} {s : Passage} {ss : List Passage} (hcs : cs =
    s.written ++ rest) (hfits : s.Fits rest)
      (hrest : Scans rest ss) : Scans cs (s :: ss)

/-- Every text can be scanned. -/
theorem exists_scans (cs : List Char) : ∃ ss, Scans cs ss := by
  -- By the length of the text, since no passage is empty.
  induction hn : cs.length using Nat.strongRecOn generalizing cs with
  | ind n ih =>
    cases hnext : Passage.next? cs with
    | none =>
        cases Passage.eq_nil_of_next? hnext
        exact ⟨[], .done⟩
    | some r =>
        rcases r with ⟨s, rest⟩
        obtain ⟨hcs, hfits⟩ := Passage.fits_of_next? hnext
        have hlt : rest.length < n := by
          have hlength := congrArg List.length hcs
          have hpos := s.length_written_pos
          rw [List.length_append] at hlength
          omega
        obtain ⟨ss, hrest⟩ := ih rest.length hlt rest rfl
        exact ⟨s :: ss, .step hcs hfits hrest⟩

namespace Scans

variable {cs : List Char} {front back ss : List Passage}

/-- A text can be scanned in one way only. -/
theorem unique {ss' : List Passage} (h : Scans cs ss) (h' : Scans cs ss') : ss = ss' := by
  -- Both scans begin with the passage that `next?` finds.
  induction h generalizing ss' with
  | done =>
      cases h' with
      | done => rfl
      | step hcs hfits hrest =>
          have hnext := Passage.next?_of_fits hfits
          rw [← hcs] at hnext
          cases hnext
  | step hcs hfits hrest ih =>
      have hnext := Passage.next?_of_fits hfits
      rw [← hcs] at hnext
      cases h' with
      | done => cases hnext
      | step hcs' hfits' hrest' =>
          have hnext' := Passage.next?_of_fits hfits'
          rw [← hcs', hnext] at hnext'
          cases hnext'
          rw [ih hrest']

/-- What a scan found is written as the text was. -/
theorem written_eq (h : Scans cs ss) : ss.flatMap Passage.written = cs := by
  induction h with
  | done => rfl
  | step hcs hfits hrest ih => rw [List.flatMap_cons, ih, hcs]

/-- The passage at the head of a scan. -/
theorem exists_head {s : Passage} {rest : List Char} (h : Scans cs ss)
    (hnext : Passage.next? cs = some (s, rest)) :
    ∃ behind, ss = s :: behind := by
  cases h with
  | done => cases hnext
  | step hcs hfits hrest =>
      rw [hcs, Passage.next?_of_fits hfits] at hnext
      cases hnext
      exact ⟨_, rfl⟩

/-- The rest of a scan is a scan of the rest. -/
theorem behind (h : Scans cs (front ++ back)) : Scans (back.flatMap Passage.written) back := by
  induction front generalizing cs with
  | nil => rwa [← h.written_eq] at h
  | cons s front ih =>
      cases h with
      | step hcs hfits hrest => exact ih hrest

end Scans

/-! ## Reading by passages -/

/-- A dollar sign that starts nothing is literal. -/
theorem chunks_dollar {cs : List Char} (h : Passage.Fits cs .dollar)
    (hopen : ∀ ds, cs ≠ '(' :: ds) :
    chunks ('$' :: cs) = .literal '$' :: chunks cs := by
  by_cases hbrace : ∃ ds, cs = '{' :: ds
  · obtain ⟨ds, rfl⟩ := hbrace
    have hnone := braced?_eq_none_iff.2 (h.2 ds rfl)
    rw [chunks]
    split
    · rfl
    · simp_all
  · rw [chunks]
    · simp [leadingName_eq_nil_iff.2 h.1]
    · exact hopen
    · exact fun ds hds => hbrace ⟨ds, hds⟩

/-- A name that fits behind a dollar sign is one chunk. -/
theorem chunks_bare {name rest : List Char} (h : Passage.Fits rest (.bare name)) :
    chunks ('$' :: name ++ rest) = .bare name :: chunks rest := by
  have hname : leadingName (name ++ rest) = name := leadingName_append h.1 h.2
  have hne : name ≠ [] := by
    rintro rfl
    cases h.1
  rw [List.cons_append, chunks]
  · simp [hname, hne]
  · exact append_ne_cons_of_isName h.1 (by decide) rest
  · exact append_ne_cons_of_isName h.1 (by decide) rest

/-- A malformed reference is literal text. -/
theorem chunks_malformed {inner rest : List Char} (h : Passage.Fits rest (.malformed inner)) :
    chunks ('$' :: '{' :: (inner ++ '}' :: rest)) =
      ('$' :: '{' :: inner ++ ['}']).map Chunk.literal ++ chunks rest := by
  have hbraced : Segment.braced? (inner ++ '}' :: rest) = some (inner, rest) :=
    braced?_eq_some_iff.2 ⟨rfl, h.2⟩
  rw [chunks]
  split
  · simp_all
  · simp_all [h.1]

section Reading

variable {sub : BodyReader} {column : Nat} {cs rest : List Char} {s : Passage} {ss : List Passage}

/-- A passage is read as its part. -/
theorem merge_chunks_of_fits (h : s.Fits rest) (hopen : ¬ ['$', '('] <:+: s.written ++ rest) :
    ((chunks (s.written ++ rest)).mapM (Chunk.toPart sub column)).map Word.merge =
      (((chunks rest).mapM (Chunk.toPart sub column)).map Word.merge).map (Word.attach s.part) := by
  -- Each passage is one chunk but for the malformed one, which is as many as it has characters.
  cases s with
  | plain c =>
      rw [Passage.written, List.singleton_append, chunks_literal h, merge_mapM_cons rfl]
      rfl
  | dollar =>
      have hparen : ∀ ds, rest ≠ '(' :: ds := by
        rintro ds rfl
        exact hopen ⟨[], ds, rfl⟩
      rw [Passage.written, List.singleton_append, chunks_dollar h hparen, merge_mapM_cons rfl]
      rfl
  | bare name =>
      rw [Passage.written, chunks_bare h, merge_mapM_cons rfl]
      rfl
  | braced name =>
      rw [Passage.written_braced_append, ← List.cons_append, ← List.cons_append, chunks_braced h,
        merge_mapM_cons rfl]
      rfl
  | malformed inner =>
      rw [Passage.written_malformed_append, chunks_malformed h, merge_mapM_literals]
      rfl

/-- Without substitutions nothing can go wrong, and a word has the parts of its passages. -/
theorem readParts_of_scans {raw : String} (h : Scans raw.toList ss)
    (hopen : ¬ ['$', '('] <:+: raw.toList) :
    readParts sub column raw = .ok (Word.merge (ss.map Passage.part)) := by
  rw [readParts_eq_merge]
  generalize raw.toList = cs at h hopen
  induction h with
  | done =>
      rw [chunks]
      rfl
  | step hcs hfits hrest ih =>
      subst hcs
      have htail := ih fun hopened => hopen (hopened.trans (List.suffix_append _ _).isInfix)
      rw [merge_chunks_of_fits hfits hopen, htail]
      rfl

end Reading

/-! ## Nothing is lost -/

namespace Word

/-- The word is written as the text: its parts one behind the other, text as it is, and each
variable with a dollar sign, with or without braces. -/
inductive WrittenAs : Word → List Char → Prop
  | nil : WrittenAs [] []
  | text (s : String) {w : Word} {cs : List Char} : WrittenAs w cs →
    WrittenAs (.text s :: w) (s.toList ++ cs)
  | bare (name : String) {w : Word} {cs : List Char} :
      WrittenAs w cs → WrittenAs (.var name :: w) ('$' :: name.toList ++ cs)
  | braced (name : String) {w : Word} {cs : List Char} :
      WrittenAs w cs → WrittenAs (.var name :: w) ('$' :: '{' :: name.toList ++ '}' :: cs)

/-- Joining texts leaves open how the word is written. -/
theorem WrittenAs.attach_text (s : String) {w : Word} {cs : List Char} (h : WrittenAs w cs) :
    WrittenAs (attach (.text s) w) (s.toList ++ cs) := by
  by_cases hs : s = ""
  · subst hs
    rwa [attach_empty]
  cases h with
  | nil => simpa [attach, hs] using WrittenAs.text s .nil
  | text t h => simpa [attach, hs] using h.text (s ++ t)
  | bare name h => simpa [attach, hs] using (h.bare name).text s
  | braced name h => simpa [attach, hs] using (h.braced name).text s

/-- Joining texts does not reach over a variable. -/
theorem merge_append_var (ps qs : List Part) (name : String) :
    merge (ps ++ .var name :: qs) = merge ps ++ .var name :: merge qs := by
  -- A text is joined with the head of a word at most, and the variable stands behind that head or
  -- is the head.
  have hcons : ∀ p (u : Word), attach p (u ++ .var name :: merge qs) = attach p u ++ .var name ::
    merge qs := by
    intro p u
    cases p with
    | text s =>
        by_cases hs : s = ""
        · simp [hs]
        · rcases u with _ | ⟨_ | _ | _, u⟩ <;> simp [attach, hs]
    | var name' => rfl
    | substitution stages => rfl
  induction ps with
  | nil => rfl
  | cons p ps ih =>
      have hmerge : merge (p :: (ps ++ .var name :: qs)) =
        attach p (merge (ps ++ .var name :: qs)) := rfl
      rw [List.cons_append, hmerge, ih, hcons]
      rfl

end Word

/-- A reference parts the texts around it. -/
theorem merge_parts_of_var {s : Passage} {name : String} (hs : s.part = .var name)
    (front behind : List Passage) :
    Word.merge ((front ++ s :: behind).map Passage.part) =
      Word.merge (front.map Passage.part) ++ .var name :: Word.merge (behind.map Passage.part) := by
  rw [List.map_append, List.map_cons, hs, Word.merge_append_var]

theorem map_unprotect_of_isName {name : List Char} (h : isName name = true) :
    name.map unprotect = name := by
  have hid : ∀ c ∈ name, unprotect c = id c := by
    intro c hc
    rw [unprotect, if_neg]
    · rfl
    · rintro rfl
      exact not_mem_of_isName h (by decide) hc
  rw [List.map_congr_left hid, List.map_id]

/-- The word of a scan is written as the text, with its marks undone. -/
theorem Scans.writtenAs {cs : List Char} {ss : List Passage} (h : Scans cs ss) :
    (Word.merge (ss.map Passage.part)).WrittenAs (cs.map unprotect) := by
  induction h with
  | done => exact .nil
  | @step cs rest s ss hcs hfits hrest ih =>
      have hmerge : Word.merge ((s :: ss).map Passage.part) =
          Word.attach s.part (Word.merge (ss.map Passage.part)) := rfl
      -- The signs of a reference need no protection, so taking it off leaves them.
      have hmarks : ['$', '{', '}'].map unprotect = ['$', '{', '}'] := by decide
      simp only [List.map_cons, List.map_nil, List.cons.injEq, and_true] at hmarks
      rw [hmerge, hcs, List.map_append]
      cases s with
      | plain c =>
          simpa [Passage.part, Passage.written]
            using ih.attach_text (String.singleton (unprotect c))
      | dollar => simpa [Passage.part, Passage.written, hmarks] using ih.attach_text "$"
      | bare name =>
          simpa [Passage.part, Passage.written, hmarks, map_unprotect_of_isName hfits.1] using
            ih.bare (String.ofList name)
      | braced name =>
          have hname : isName name = true := hfits
          simpa [Passage.part, Passage.written, hmarks, map_unprotect_of_isName hname] using
            ih.braced (String.ofList name)
      | malformed inner =>
          simpa [Passage.part, Passage.written, hmarks] using
            ih.attach_text (String.ofList (('$' :: '{' :: inner ++ ['}']).map unprotect))

/-! ## Words without substitutions -/

/-- The text of a word without substitutions is read without fault, and nothing of it is lost: the
parts of the word, written one behind the other, are the text. There is one way to scan the text
from left to right. A name without braces is as long as it can be, and wherever the scan comes to a
dollar sign in front of a name, or of a name in braces, the word has a variable. -/
theorem word_keeps_text_and_references {raw : String} (h : ¬ ['$', '('] <:+: raw.toList) :
    ∃ (passages : List Passage) (w : Word), Word.parse raw = .ok w ∧
      w.WrittenAs (raw.toList.map unprotect) ∧
      (∀ ss, Scans raw.toList ss ↔ ss = passages) ∧ w = Word.merge (passages.map Passage.part) ∧
      (∀ front name behind, passages = front ++ .bare name :: behind →
        isName name = true ∧ ∀ c ∈ (behind.flatMap Passage.written).head?, isNameRest c = false) ∧
      ∀ front back, passages = front ++ back →
        (∀ c rest, back.flatMap Passage.written = '$' :: c :: rest → isNameStart c = true →
          ∃ name behind, back = .bare name :: behind ∧
            w = Word.merge (front.map Passage.part) ++
              .var (String.ofList name) :: Word.merge (behind.map Passage.part)) ∧
        ∀ name rest, back.flatMap Passage.written = '$' :: '{' :: name ++ '}' :: rest →
          isName name = true →
          ∃ behind, back = .braced name :: behind ∧
            w = Word.merge (front.map Passage.part) ++
              .var (String.ofList name) :: Word.merge (behind.map Passage.part) := by
  obtain ⟨passages, hscans⟩ := exists_scans raw.toList
  refine ⟨passages, _, readParts_of_scans hscans h, hscans.writtenAs, fun ss =>
    ⟨fun hss => hss.unique hscans, ?_⟩, rfl, ?_, ?_⟩
  · rintro rfl
    exact hscans
  · rintro front name behind rfl
    cases hscans.behind with
    | step hcs hfits hrest =>
        rw [hrest.written_eq]
        exact hfits
  · rintro front back rfl
    have hback := hscans.behind
    refine ⟨fun c rest htext hc => ?_, fun name rest htext hname => ?_⟩
    · obtain ⟨name, rest', hnext⟩ := Passage.exists_next?_bare hc rest
      obtain ⟨behind, rfl⟩ := hback.exists_head (htext ▸ hnext)
      exact ⟨name, behind, rfl, merge_parts_of_var rfl front behind⟩
    · have hfits : (Passage.braced name).Fits rest := hname
      have hnext := Passage.next?_of_fits hfits
      rw [Passage.written_braced_append, ← List.cons_append, ← List.cons_append, ← htext] at hnext
      obtain ⟨behind, rfl⟩ := hback.exists_head hnext
      exact ⟨behind, rfl, merge_parts_of_var rfl front behind⟩

/-- A variable with braces behind one without, braces around a text that is no name, a protected
dollar sign in front of a parenthesis, and braces that are never closed. -/
theorem unclosed_braces_are_kept :
    ¬ ['$', '('] <:+: "x$A1b$\x7bB\x7d$\x7b1$C\x7d\x00(D)$$\x7b".toList ∧
      Word.parse "x$A1b$\x7bB\x7d$\x7b1$C\x7d\x00(D)$$\x7b" =
        .ok [.text "x", .var "A1", .text "b", .var "B", .text "$\x7b1$C\x7d$(D)$$\x7b"] ∧
      Word.WrittenAs [.text "x", .var "A1", .text "b", .var "B", .text "$\x7b1$C\x7d$(D)$$\x7b"]
        "x$A1b$\x7bB\x7d$\x7b1$C\x7d$(D)$$\x7b".toList := by
  have hopen : ¬ ['$', '('] <:+: "x$A1b$\x7bB\x7d$\x7b1$C\x7d\x00(D)$$\x7b".toList := by
    simp [List.infix_cons_iff]
  have hparse : Word.parse "x$A1b$\x7bB\x7d$\x7b1$C\x7d\x00(D)$$\x7b" =
      .ok [.text "x", .var "A1", .text "b", .var "B", .text "$\x7b1$C\x7d$(D)$$\x7b"] := by
    with_unfolding_all rfl
  have htext : "x$A1b$\x7bB\x7d$\x7b1$C\x7d\x00(D)$$\x7b".toList.map unprotect =
      "x$A1b$\x7bB\x7d$\x7b1$C\x7d$(D)$$\x7b".toList := by decide
  obtain ⟨passages, w, hw, hwritten, -⟩ := word_keeps_text_and_references hopen
  rw [htext] at hwritten
  have hsame := Except.ok.inj (hparse.symm.trans hw)
  exact ⟨hopen, hparse, hsame ▸ hwritten⟩

end LineShell
