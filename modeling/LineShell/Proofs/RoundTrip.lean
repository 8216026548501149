import LineShell.Pipeline.Printer
import LineShell.Proofs.Quoting

/-!
# RoundTrip — printed pipelines are read back

A pipeline whose texts hold no character with a meaning is printed as a line that reads back as the
same pipeline.

* `Pipeline.PrintableWithin n` — the pipelines in question, with substitutions nested to at most `n`
  levels;
* `ReadsBack` — a printed part is one piece of a word, and the scanner passes over it;
* `Draft.Takes` — what reading a printed text adds to the command under construction;
* `parse_render` — the round trip.

The induction is on the levels of nesting. Everything within one level is a matter of lists, and is
stated for any reader of substitutions.
-/

namespace LineShell

/-! ## Printable pipelines -/

/-- A character that a text may hold to be printed as it is. -/
def isPrintable (c : Char) : Bool :=
  isOrdinary c && c != '(' && c != ')' && c != protectedDollar

/-- No two texts are neighbours. -/
def Word.Joined : Word → Prop
  | [] => True
  | .text _ :: .text _ :: _ => False
  | _ :: rest => Joined rest

/-- A word that the printer can write, given the parts that it can write. -/
structure Word.Printable (P : Part → Prop) (w : Word) : Prop where
  ne_nil : w ≠ []
  joined : w.Joined
  parts : ∀ p ∈ w, P p

/-- The printer has an operator for this stream: output can be appended, input cannot, and a
descriptor is written with digits that do not name a standard stream. -/
def Role.Printable : Role → Bool → Prop
  | .stdin, append => append = false
  | .stdout, _ => True
  | .stderr, _ => True
  | .descriptor digits, _ =>
      digits ≠ "" ∧ digits.toList.all Char.isDigit = true ∧
        digits ≠ "0" ∧ digits ≠ "1" ∧ digits ≠ "2"

/-- A stage that the printer can write. Its redirections are in role order, one for each role. -/
structure Stage.Printable (P : Part → Prop) (s : Stage Word) : Prop where
  name : s.name.Printable P
  args : ∀ w ∈ s.args, Word.Printable P w
  roles : ∀ r ∈ s.redirections, r.role.Printable r.append
  targets : ∀ r ∈ s.redirections, r.target.Printable P
  order : s.redirections.Pairwise fun r r' => r.role.order r'.role = .lt

/-- A part that the printer can write, with substitutions nested to at most so many levels. -/
def Part.PrintableWithin : Nat → Part → Prop
  | _, .text s => s ≠ "" ∧ s.toList.all isPrintable = true
  | _, .var name => isIdentifier name = true
  | 0, .substitution _ => False
  | n + 1, .substitution stages => ∀ s ∈ stages, Stage.Printable (PrintableWithin n) s

/-- A pipeline that the printer can write, with substitutions nested to at most so many levels. -/
def Pipeline.PrintableWithin (n : Nat) (p : Pipeline) : Prop :=
  ∀ s ∈ p, s.Printable (Part.PrintableWithin n)

theorem Word.Printable.imp {P Q : Part → Prop} (h : ∀ p, P p → Q p) {w : Word}
    (hw : w.Printable P) : w.Printable Q :=
  ⟨hw.ne_nil, hw.joined, fun p hp => h p (hw.parts p hp)⟩

theorem Stage.Printable.imp {P Q : Part → Prop} (h : ∀ p, P p → Q p) {s : Stage Word}
    (hs : s.Printable P) : s.Printable Q :=
  ⟨hs.name.imp h, fun w hw => (hs.args w hw).imp h, hs.roles,
    fun r hr => (hs.targets r hr).imp h, hs.order⟩

/-! The predicates can be computed. -/

instance Word.decidableJoined : (w : Word) → Decidable w.Joined
  | [] => .isTrue trivial
  | .text _ :: .text _ :: _ => .isFalse id
  | [.text _] => .isTrue trivial
  | .text _ :: .var name :: rest => decidableJoined (.var name :: rest)
  | .text _ :: .substitution stages :: rest => decidableJoined (.substitution stages :: rest)
  | .var _ :: rest => decidableJoined rest
  | .substitution _ :: rest => decidableJoined rest

instance (P : Part → Prop) [DecidablePred P] (w : Word) : Decidable (w.Printable P) :=
  decidable_of_iff (w ≠ [] ∧ w.Joined ∧ ∀ p ∈ w, P p)
    ⟨fun h => ⟨h.1, h.2.1, h.2.2⟩, fun h => ⟨h.ne_nil, h.joined, h.parts⟩⟩

instance : (role : Role) → (append : Bool) → Decidable (role.Printable append)
  | .stdin, append => inferInstanceAs (Decidable (append = false))
  | .stdout, _ => .isTrue trivial
  | .stderr, _ => .isTrue trivial
  | .descriptor _, _ => inferInstanceAs (Decidable (_ ∧ _ ∧ _ ∧ _ ∧ _))

instance (P : Part → Prop) [DecidablePred P] (s : Stage Word) : Decidable (s.Printable P) :=
  decidable_of_iff (s.name.Printable P ∧ (∀ w ∈ s.args, Word.Printable P w) ∧
      (∀ r ∈ s.redirections, r.role.Printable r.append) ∧
      (∀ r ∈ s.redirections, r.target.Printable P) ∧
      s.redirections.Pairwise fun r r' => r.role.order r'.role = .lt)
    ⟨fun h => ⟨h.1, h.2.1, h.2.2.1, h.2.2.2.1, h.2.2.2.2⟩,
      fun h => ⟨h.name, h.args, h.roles, h.targets, h.order⟩⟩

instance Part.decidablePrintableWithin : (n : Nat) → DecidablePred (Part.PrintableWithin n)
  | 0, .text _ => inferInstanceAs (Decidable (_ ∧ _))
  | _ + 1, .text _ => inferInstanceAs (Decidable (_ ∧ _))
  | 0, .var _ => inferInstanceAs (Decidable (_ = true))
  | _ + 1, .var _ => inferInstanceAs (Decidable (_ = true))
  | 0, .substitution _ => .isFalse id
  | n + 1, .substitution stages =>
      have := decidablePrintableWithin n
      inferInstanceAs (Decidable (∀ s ∈ stages, Stage.Printable (Part.PrintableWithin n) s))

instance (n : Nat) (p : Pipeline) : Decidable (p.PrintableWithin n) :=
  inferInstanceAs (Decidable (∀ s ∈ p, Stage.Printable (Part.PrintableWithin n) s))

/-- A word in which no texts are neighbours and none is empty is its own merge. -/
theorem Word.merge_eq_self {w : Word} (hjoined : w.Joined) (hempty : Part.text "" ∉ w) :
    Word.merge w = w := by
  induction w with
  | nil => rfl
  | cons p w ih =>
      have hempty' : Part.text "" ∉ w := fun h => hempty (List.mem_cons_of_mem _ h)
      have hcons : Word.merge (p :: w) = Word.attach p (Word.merge w) := rfl
      cases p with
      | var name => rw [hcons, ih hjoined hempty', attach_var]
      | substitution stages => rw [hcons, ih hjoined hempty', attach_substitution]
      | text s =>
          -- The text is kept as it is, because no text follows it.
          have hs : s ≠ "" := by
            rintro rfl
            exact hempty (List.mem_cons_self ..)
          cases w with
          | nil => simp [Word.merge, attach, hs]
          | cons q w =>
              cases q with
              | text t => exact hjoined.elim
              | var name =>
                  rw [hcons, ih hjoined hempty']
                  simp [attach, hs]
              | substitution stages =>
                  rw [hcons, ih hjoined hempty']
                  simp [attach, hs]

/-! ## Parts and words -/

/-- A part is printed as one piece of a word, and the scanner passes over it. -/
structure ReadsBack (sub : BodyReader) (p : Part) : Prop where
  piece : ∃ k : Piece sub, k.written = p.chars ∧ k.denote = [p]
  neutral : Body.Neutral p.chars
  nonempty : p ≠ .text ""

section Words

variable {sub : BodyReader}

/-- A word whose parts read back is made of pieces that stand for it. -/
theorem exists_pieces_word {w : Word} (h : ∀ p ∈ w, ReadsBack sub p) :
    ∃ ks : List (Piece sub), ks.flatMap Piece.written = wordChars w ∧
      ks.flatMap Piece.denote = w := by
  induction w with
  | nil => exact ⟨[], rfl, rfl⟩
  | cons p w ih =>
      rcases List.forall_mem_cons.1 h with ⟨hp, hw⟩
      rcases hp.piece with ⟨k, hwritten, hdenote⟩
      rcases ih hw with ⟨ks, hws, hds⟩
      exact ⟨k :: ks, by simp [wordChars, hwritten, hws], by simp [hdenote, hds]⟩

/-- A printed word is a sequence of pieces that means the word. -/
theorem Word.Printable.exists_pieces {w : Word} (hw : w.Printable (ReadsBack sub)) :
    ∃ ks : List (Piece sub), ks.flatMap Piece.written = wordChars w ∧ meaning ks = w ∧
      meaning ks ≠ [] := by
  rcases exists_pieces_word hw.parts with ⟨ks, hwritten, hdenote⟩
  have hmeaning : meaning ks = w := by
    rw [meaning, hdenote]
    exact Word.merge_eq_self hw.joined fun hmem => (hw.parts _ hmem).nonempty rfl
  exact ⟨ks, hwritten, hmeaning, by simp [hmeaning, hw.ne_nil]⟩

end Words

/-! ## Operators -/

/-- The operator in front of a target, with the digits of its descriptor. -/
theorem operator?_output {digits : List Char} (append : Bool) {rest : List Char}
    (h : ∀ c ∈ digits, c.isDigit = true) :
    operator? (digits ++ (Token.outputSign append).toList ++ ' ' :: rest) =
      some (if digits.isEmpty then .output append else .descriptor (String.ofList digits) append,
        ' ' :: rest) := by
  have hsign : outputSign? ((Token.outputSign append).toList ++ ' ' :: rest) =
      some (append, ' ' :: rest) := by
    cases append <;> simp [Token.outputSign, outputSign?]
  have hhead : ∃ tail, (Token.outputSign append).toList ++ ' ' :: rest = '>' :: tail := by
    cases append with
    | false => exact ⟨' ' :: rest, rfl⟩
    | true => exact ⟨'>' :: ' ' :: rest, rfl⟩
  rcases hhead with ⟨tail, htail⟩
  rw [htail] at hsign
  unfold operator?
  rw [List.append_assoc, htail, List.dropWhile_append_of_pos h, List.takeWhile_append_of_pos h]
  have hdigit : Char.isDigit '>' = false := by decide
  simp only [List.dropWhile_cons, List.takeWhile_cons, hdigit, Bool.false_eq_true, if_false, hsign,
    List.append_nil]
  split <;> simp_all

/-- The printed operator of a stream is read as that stream. -/
theorem operator?_redirectionSign {role : Role} {append : Bool} (h : role.Printable append)
    (rest : List Char) :
    ∃ token, operator? ((redirectionSign role append).toList ++ ' ' :: rest) =
        some (token, ' ' :: rest) ∧ token.redirects? = some (role, append) := by
  cases role with
  | stdin =>
      have happend : append = false := h
      subst happend
      exact ⟨.input, by simp [redirectionSign, operator?, outputSign?], rfl⟩
  | stdout =>
      have hread := @operator?_output [] append rest (by simp)
      exact ⟨.output append, hread, rfl⟩
  | stderr =>
      have hread := @operator?_output ['2'] append rest (by simp)
      refine ⟨.descriptor "2" append, ?_, rfl⟩
      cases append <;> exact hread
  | descriptor digits =>
      rcases h with ⟨hne, hdigits, h0, h1, h2⟩
      refine ⟨.descriptor digits append, ?_, ?_⟩
      · have hread := @operator?_output digits.toList append rest (List.all_eq_true.1 hdigits)
        have hlist : digits.toList ≠ [] := by simpa using hne
        simpa [hlist, redirectionSign, Token.outputSign] using hread
      · simp [Token.redirects?, Role.ofDigits, h0, h1, h2]

/-! ## Commands -/

theorem Role.order_swap (a b : Role) : (a.order b).swap = b.order a := by
  rw [Role.order, Role.order, Ordering.swap_then, ← Std.OrientedOrd.eq_swap,
    ← Std.OrientedOrd.eq_swap]

/-- A redirection that comes after all others is put at the end. -/
theorem Redirection.insert_eq_append {W : Type} {r : Redirection W} {rs : List (Redirection W)}
    (h : ∀ s ∈ rs, s.role.order r.role = .lt) : r.insert rs = rs ++ [r] := by
  induction rs with
  | nil => rfl
  | cons s rs ih =>
      have hs : r.role.order s.role = .gt := by
        rw [← Role.order_swap, h s (List.mem_cons_self ..)]
        rfl
      rw [Redirection.insert, hs, ih fun t ht => h t (List.mem_cons_of_mem _ ht)]
      rfl

theorem redirectionChars_eq (r : Redirection Word) :
    redirectionChars r =
      ' ' :: ((redirectionSign r.role r.append).toList ++ ' ' :: wordChars r.target) := by
  cases r
  rw [redirectionChars]
  rfl

theorem stageChars_eq (s : Stage Word) :
    stageChars s = wordChars s.name ++ (argsChars s.args ++ redirectionsChars s.redirections) := by
  cases s
  rw [stageChars, List.append_assoc]

theorem Separated.append {as bs : List Char} (ha : Separated as) (hb : Separated bs) :
    Separated (as ++ bs) := by
  rcases ha with rfl | ⟨tail, rfl⟩
  · exact hb
  · exact .inr ⟨tail ++ bs, rfl⟩

/-- Arguments are separated from what is before them. -/
theorem separated_argsChars (args : List Word) : Separated (argsChars args) := by
  cases args with
  | nil => exact .inl rfl
  | cons w args => exact .inr ⟨_, rfl⟩

/-- Redirections are separated from what is before them. -/
theorem separated_redirectionsChars (rs : List (Redirection Word)) :
    Separated (redirectionsChars rs) := by
  cases rs with
  | nil => exact .inl rfl
  | cons r rs =>
      rw [redirectionsChars, redirectionChars_eq]
      exact .inr ⟨_, rfl⟩

/-- Later stages are separated from what is before them. -/
theorem separated_laterStagesChars (stages : Pipeline) : Separated (laterStagesChars stages) := by
  cases stages with
  | nil => exact .inl rfl
  | cons s stages => exact .inr ⟨_, rfl⟩

namespace Draft

/-- Reading the text takes the command under construction from `d` to `d'`. -/
def Takes (sub : BodyReader) (d : Draft) (cs : List Char) (d' : Draft) : Prop :=
  ∀ pos rest, Separated rest →
    d.read sub (lexFrom pos (cs ++ rest)) = d'.read sub (lexFrom (pos.past cs) rest)

namespace Takes

variable {sub : BodyReader} {d d₁ d₂ : Draft} {cs cs' : List Char}

theorem nil : Takes sub d [] d :=
  fun _ _ _ => rfl

/-- What separated texts take, they take in turn. -/
theorem append (h : Takes sub d cs d₁) (hcs' : Separated cs') (h' : Takes sub d₁ cs' d₂) :
    Takes sub d (cs ++ cs') d₂ := by
  intro pos rest hrest
  rw [List.append_assoc, h pos _ (hcs'.append hrest), h' _ rest hrest, Position.past_append]

theorem blank (h : Takes sub d cs d₁) : Takes sub d (' ' :: cs) d₁ := by
  intro pos rest hrest
  rw [List.cons_append, lexFrom_blank (by decide), h _ rest hrest, Position.past_cons]

/-- A word is added to the command. -/
theorem word {w : Word} (hw : w.Printable (ReadsBack sub)) :
    Takes sub d (wordChars w) (d.addWord w) := by
  rcases hw.exists_pieces with ⟨ks, hwritten, hmeaning, hne⟩
  intro pos rest hrest
  have hread := @read_pieces sub pos d ks rest hne hrest
  rwa [hwritten, hmeaning] at hread

/-- Behind the name every word is an argument. -/
theorem args {name : Word} {ws : List Word} (hd : d.name = some name)
    (hws : ∀ w ∈ ws, Word.Printable (ReadsBack sub) w) :
    Takes sub d (argsChars ws) { d with args := d.args ++ ws } := by
  induction ws generalizing d with
  | nil => simpa [argsChars] using nil
  | cons w ws ih =>
      rcases List.forall_mem_cons.1 hws with ⟨hw, hrest⟩
      have hadd : d.addWord w = { d with args := d.args ++ [w] } := by
        simp [addWord, hd]
      have hhead : Takes sub d (' ' :: wordChars w) { d with args := d.args ++ [w] } :=
        hadd ▸ (word hw).blank
      have htail := @ih { d with args := d.args ++ [w] } hd hrest
      simpa [argsChars] using hhead.append (separated_argsChars ws) htail

/-- A redirection is added to the command. -/
theorem redirection {r : Redirection Word} (hrole : r.role.Printable r.append)
    (htarget : r.target.Printable (ReadsBack sub)) :
    Takes sub d (redirectionChars r) (d.redirect r) := by
  rcases htarget.exists_pieces with ⟨ks, hwritten, hmeaning, hne⟩
  intro pos rest hrest
  rcases operator?_redirectionSign hrole (wordChars r.target ++ rest) with ⟨token, hop, hstream⟩
  -- A blank, the operator, a blank and the target, one lexeme after the other.
  have hchars : redirectionChars r ++ rest =
      ' ' :: ((redirectionSign r.role r.append).toList ++ ' ' :: (wordChars r.target ++ rest)) := by
    simp [redirectionChars_eq]
  have hpast : pos.past (redirectionChars r) =
      (((pos.advance ' ').past (redirectionSign r.role r.append).toList).advance ' ').past
        (wordChars r.target) := by
    simp [redirectionChars_eq, Position.past_append]
  rw [hchars, hpast, lexFrom_blank (by decide), lexFrom_operator hop, lexFrom_blank (by decide),
    ← hwritten, lexFrom_pieces hne hrest, read_redirection hstream rfl, readParts_pieces, hmeaning]
  rfl

/-- Redirections in role order are kept in that order. -/
theorem redirections {rs : List (Redirection Word)}
    (horder : (d.redirections ++ rs).Pairwise fun r r' => r.role.order r'.role = .lt)
    (hroles : ∀ r ∈ rs, r.role.Printable r.append)
    (htargets : ∀ r ∈ rs, r.target.Printable (ReadsBack sub)) :
    Takes sub d (redirectionsChars rs) { d with redirections := d.redirections ++ rs } := by
  induction rs generalizing d with
  | nil => simpa [redirectionsChars] using nil
  | cons r rs ih =>
      rcases List.forall_mem_cons.1 hroles with ⟨hrole, hroles⟩
      rcases List.forall_mem_cons.1 htargets with ⟨htarget, htargets⟩
      -- Everything read so far comes before `r`, so `r` is put at the end.
      have hlast : ∀ s ∈ d.redirections, s.role.order r.role = .lt :=
        fun s hs => (List.pairwise_append.1 horder).2.2 s hs r (List.mem_cons_self ..)
      have hinsert : d.redirect r = { d with redirections := d.redirections ++ [r] } := by
        rw [redirect, Redirection.insert_eq_append hlast]
      have hhead : Takes sub d (redirectionChars r)
          { d with redirections := d.redirections ++ [r] } :=
        hinsert ▸ redirection hrole htarget
      have htail := @ih { d with redirections := d.redirections ++ [r] } (by simpa using horder)
        hroles htargets
      simpa [redirectionsChars] using hhead.append (separated_redirectionsChars rs) htail

/-- A whole stage. -/
theorem stage {s : Stage Word} (hs : s.Printable (ReadsBack sub)) :
    Takes sub {} (stageChars s) ⟨some s.name, s.args, s.redirections⟩ := by
  have hname : Takes sub {} (wordChars s.name) ⟨some s.name, [], []⟩ := word hs.name
  have hargs : Takes sub ⟨some s.name, [], []⟩ (argsChars s.args) ⟨some s.name, s.args, []⟩ :=
    args rfl hs.args
  have hredirections : Takes sub ⟨some s.name, s.args, []⟩ (redirectionsChars s.redirections)
      ⟨some s.name, s.args, s.redirections⟩ := redirections hs.order hs.roles hs.targets
  rw [stageChars_eq]
  have hseparated := separated_redirectionsChars s.redirections
  exact hname.append ((separated_argsChars s.args).append hseparated)
    (hargs.append hseparated hredirections)

end Takes

/-- The stages behind a command, each behind a bar. -/
theorem read_laterStages {sub : BodyReader} {d : Draft} {pos : Position} {stages : Pipeline}
    (h : ∀ s ∈ stages, Stage.Printable (ReadsBack sub) s) :
    d.read sub (lexFrom pos (laterStagesChars stages)) = .ok (d.finish ++ stages) := by
  induction stages generalizing d pos with
  | nil => rw [laterStagesChars, lexFrom_nil, read_nil, List.append_nil]
  | cons s stages ih =>
      rcases List.forall_mem_cons.1 h with ⟨hs, hstages⟩
      have hbar : operator? (['|'] ++ ' ' :: (stageChars s ++ laterStagesChars stages)) =
          some (.pipe, ' ' :: (stageChars s ++ laterStagesChars stages)) := by
        simp [operator?, outputSign?]
      have hstage := Takes.stage hs
      have htail (pos : Position) : Draft.read sub ⟨some s.name, s.args, s.redirections⟩
          (lexFrom pos (laterStagesChars stages)) = .ok (s :: stages) := ih hstages
      have hchars : laterStagesChars (s :: stages) =
          ' ' :: (['|'] ++ ' ' :: (stageChars s ++ laterStagesChars stages)) := by
        simp [laterStagesChars]
      rw [hchars, lexFrom_blank (by decide), lexFrom_operator hbar, read_pipe rfl,
        lexFrom_blank (by decide), hstage _ _ (separated_laterStagesChars stages), htail]
      rfl

/-- A printed pipeline is read back, given that the reader reads back its parts. -/
theorem read_stages {sub : BodyReader} {stages : Pipeline}
    (h : ∀ s ∈ stages, Stage.Printable (ReadsBack sub) s) :
    ({} : Draft).read sub (lex (stagesChars stages)) = .ok stages := by
  cases stages with
  | nil => rw [stagesChars, lex, lexFrom_nil, read_nil, finish]
  | cons s stages =>
      rcases List.forall_mem_cons.1 h with ⟨hs, hstages⟩
      rw [stagesChars, lex, Takes.stage hs _ _ (separated_laterStagesChars stages),
        read_laterStages hstages]
      rfl

end Draft

/-! ## The scanner passes over printed texts -/

namespace Body.Neutral

variable {sub : BodyReader}

/-- A printed word is neutral for a body around it. -/
theorem word {w : Word} (h : ∀ p ∈ w, ReadsBack sub p) : Neutral (wordChars w) := by
  induction w with
  | nil => exact nil
  | cons p w ih =>
      rcases List.forall_mem_cons.1 h with ⟨hp, hw⟩
      exact hp.neutral.append (ih hw)

theorem blank {cs : List Char} (h : Neutral cs) : Neutral (' ' :: cs) :=
  (char (by decide)).append h

theorem args {ws : List Word} (h : ∀ w ∈ ws, Word.Printable (ReadsBack sub) w) :
    Neutral (argsChars ws) := by
  induction ws with
  | nil => exact nil
  | cons w ws ih =>
      rcases List.forall_mem_cons.1 h with ⟨hw, hws⟩
      have hhead : Neutral (' ' :: wordChars w) := (word hw.parts).blank
      exact hhead.append (ih hws)

/-- A sign that can be printed holds nothing that a body would count. -/
theorem redirectionSign {role : Role} {append : Bool} (h : role.Printable append) :
    Neutral (redirectionSign role append).toList := by
  have hout : Neutral ['>'] := char (by decide)
  have hsign : Neutral (Token.outputSign append).toList := by
    cases append with
    | false => exact hout
    | true => exact hout.append hout
  cases role with
  | stdin =>
      have hin : Neutral ['<'] := char (by decide)
      cases append <;> exact hin
  | stdout => exact hsign
  | stderr =>
      have hdigit : Neutral ['2'] := char (by decide)
      have hboth := hdigit.append hsign
      simpa [LineShell.redirectionSign, Token.outputSign] using hboth
  | descriptor digits =>
      have hdigits : Neutral digits.toList := chars (by decide) (List.all_eq_true.1 h.2.1)
      have hboth := hdigits.append hsign
      simpa [LineShell.redirectionSign, Token.outputSign] using hboth

theorem redirections {rs : List (Redirection Word)}
    (hroles : ∀ r ∈ rs, r.role.Printable r.append)
    (htargets : ∀ r ∈ rs, r.target.Printable (ReadsBack sub)) : Neutral (redirectionsChars rs) := by
  induction rs with
  | nil => exact nil
  | cons r rs ih =>
      rcases List.forall_mem_cons.1 hroles with ⟨hrole, hroles⟩
      rcases List.forall_mem_cons.1 htargets with ⟨htarget, htargets⟩
      have hword : Neutral (' ' :: wordChars r.target) := (word htarget.parts).blank
      have hhead : Neutral (redirectionChars r) := by
        rw [redirectionChars_eq]
        exact ((redirectionSign hrole).append hword).blank
      exact hhead.append (ih hroles htargets)

/-- A printed stage is neutral for a body around it. -/
theorem stage {s : Stage Word} (h : s.Printable (ReadsBack sub)) : Neutral (stageChars s) := by
  rw [stageChars_eq]
  exact (word h.name.parts).append ((args h.args).append (redirections h.roles h.targets))

theorem laterStages {stages : Pipeline} (h : ∀ s ∈ stages, Stage.Printable (ReadsBack sub) s) :
    Neutral (laterStagesChars stages) := by
  induction stages with
  | nil => exact nil
  | cons s stages ih =>
      rcases List.forall_mem_cons.1 h with ⟨hs, hstages⟩
      have hbar : Neutral ['|'] := char (by decide)
      have hrest := (stage hs).append (ih hstages)
      exact (hbar.append hrest.blank).blank

/-- A printed pipeline is neutral for a body around it. -/
theorem stages {stages : Pipeline} (h : ∀ s ∈ stages, Stage.Printable (ReadsBack sub) s) :
    Neutral (stagesChars stages) := by
  cases stages with
  | nil => exact nil
  | cons s stages =>
      rcases List.forall_mem_cons.1 h with ⟨hs, hstages⟩
      exact (stage hs).append (laterStages hstages)

end Body.Neutral

/-! ## Levels of nesting -/

namespace ReadsBack

/-- Printable text reads back as itself. -/
theorem text {sub : BodyReader} {s : String} (hs : s ≠ "")
    (h : s.toList.all isPrintable = true) : ReadsBack sub (.text s) := by
  have hchars := List.all_eq_true.1 h
  have hordinary : ∀ c ∈ s.toList, isOrdinary c = true := by
    intro c hc
    have hprintable := hchars c hc
    simp only [isPrintable, Bool.and_eq_true] at hprintable
    exact hprintable.1.1.1
  have hunmarked : protectedDollar ∉ s.toList := by
    intro hmem
    exact absurd (hchars _ hmem) (by decide)
  refine ⟨⟨.plain s.toList hordinary hunmarked, rfl, ?_⟩, ?_, by simpa using hs⟩
  · simp [Piece.denote]
  · exact .chars (f := isPrintable) (by decide) hchars

/-- A reference reads back as itself. -/
theorem var {sub : BodyReader} {name : String} (h : isIdentifier name = true) :
    ReadsBack sub (.var name) := by
  refine ⟨⟨.expansion (.var name.toList h), rfl, ?_⟩, ?_, by simp⟩
  · simp [Piece.denote, Expansion.denote]
  · have hdollar : Body.Neutral ['$'] := .char (by decide)
    have hopen : Body.Neutral ['{'] := .char (by decide)
    have hname : Body.Neutral name.toList :=
      .chars (f := isNameRest) (by decide) fun c hc => isNameRest_of_mem h hc
    have hclose : Body.Neutral ['}'] := .char (by decide)
    exact hdollar.append (hopen.append (hname.append hclose))

/-- A substitution reads back one level higher than its stages. -/
theorem substitution {n : Nat} {stages : Pipeline}
    (h : ∀ s ∈ stages, Stage.Printable (ReadsBack (readerWithin n)) s) :
    ReadsBack (readerWithin (n + 1)) (.substitution stages) := by
  have hneutral := Body.Neutral.stages h
  have hwhole : substitutionBody (stagesChars stages ++ [')']) = (stagesChars stages, []) :=
    substitutionBody_eq_iff.2 hneutral.balanced
  -- The reader one level up reads the printed stages with the levels that are left.
  have hread : parseWithin n (stagesChars stages) = .ok stages := by
    rw [parseWithin_eq_read]
    exact Draft.read_stages h
  refine ⟨⟨.expansion (.substitution (stagesChars stages) stages hwhole fun _ => hread), ?_, rfl⟩,
    ?_, by simp⟩
  · simp [Piece.written, Expansion.written, Part.chars]
  · have hdollar : Body.Neutral ['$'] := .char (by decide)
    have hall := hdollar.append hneutral.enclosed
    simpa [Part.chars] using hall

end ReadsBack

/-- Printable parts read back, by induction on the levels of nesting. -/
theorem Part.PrintableWithin.readsBack {n : Nat} {p : Part} (h : p.PrintableWithin n) :
    ReadsBack (readerWithin n) p := by
  induction n generalizing p with
  | zero =>
      cases p with
      | text s => exact .text h.1 h.2
      | var name => exact .var h
      | substitution stages => exact h.elim
  | succ n ih =>
      cases p with
      | text s => exact .text h.1 h.2
      | var name => exact .var h
      | substitution stages => exact .substitution fun s hs => (h s hs).imp fun _ hp => ih hp

/-- A printable pipeline, nested no deeper than the parser allows, is read back from its text. -/
theorem parse_render {p : Pipeline} (h : p.PrintableWithin maxNesting) :
    Pipeline.parse p.render = .ok p := by
  rw [Pipeline.parse, Pipeline.render, String.toList_ofList, parseWithin_eq_read]
  exact Draft.read_stages fun s hs => (h s hs).imp fun _ hp => hp.readsBack

/-- `cat a${X}$(ls $() 2>> b) 2 < 7 3> f`: text next to a variable, an empty substitution in a
substitution, and an argument of digits before redirections. -/
def nestedPipeline : Pipeline :=
  [⟨[.text "cat"],
    [[.text "a", .var "X", .substitution
      [⟨[.text "ls"], [[.substitution []]], [⟨.stderr, true, [.text "b"]⟩]⟩]], [.text "2"]],
    [⟨.stdin, false, [.text "7"]⟩, ⟨.descriptor "3", false, [.text "f"]⟩]⟩]

/-- A pipeline with text, a reference, nesting and all kinds of redirections. -/
theorem nested_pipeline_reads_back :
    nestedPipeline.PrintableWithin maxNesting ∧
      Pipeline.parse "cat a${X}$(ls $() 2>> b) 2 < 7 3> f" = .ok nestedPipeline := by
  have hprintable : nestedPipeline.PrintableWithin maxNesting := by decide
  have hrender : nestedPipeline.render = "cat a${X}$(ls $() 2>> b) 2 < 7 3> f" := by decide
  exact ⟨hprintable, hrender ▸ parse_render hprintable⟩

end LineShell
