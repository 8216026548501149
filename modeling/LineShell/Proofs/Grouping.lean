import LineShell.Proofs.RoundTrip
import Mathlib.Data.List.Pairwise

/-!
# Grouping — the pipeline of a line, without a parser

The parser folds lexemes into a command under construction. The result can be said without a fold:
the tokens are split at the bars, each word is paired with the operator in front of it, the words
that are left over are the name and the arguments, and for each stream the last redirection counts.

* `Redirection.lastOfEach` — the redirections that no later one overrides, in role order;
* `stage?`, `grouped` — the stages of a list of tokens;
* `spelled`, `groupedWithin` — words, and the texts in their substitutions, level by level;
* `parseWithin_eq_grouped` — what the parser returns is `groupedWithin`.
-/

namespace LineShell

/-! ## Redirections in role order -/

instance : Std.TransCmp Role.order :=
  inferInstanceAs (Std.TransCmp (compareLex (compareOn Role.rank) (compareOn Role.digits)))

theorem Role.order_self (a : Role) : a.order a = .eq :=
  Std.ReflCmp.compare_self

/-- Roles of the same rank are the same. -/
theorem Role.eq_of_order_eq {a b : Role} (h : a.order b = .eq) : a = b := by
  rw [Role.order, Ordering.then_eq_eq, Nat.compare_eq_eq] at h
  cases a <;> cases b <;> simp_all [Role.rank, Role.digits]

namespace Redirection

variable {W : Type} {r s : Redirection W} {rs rs' : List (Redirection W)}

/-- Redirections in role order, one for each role. -/
def Ordered (rs : List (Redirection W)) : Prop :=
  rs.Pairwise fun r s => r.role.order s.role = .lt

theorem role_ne_of_lt (h : r.role.order s.role = .lt) : s.role ≠ r.role := by
  intro heq
  rw [heq, Role.order_self] at h
  cases h

/-- Lists in role order are determined by what they hold. -/
theorem Ordered.eq_of_mem_iff (h : Ordered rs) (h' : Ordered rs') (hmem : ∀ r, r ∈ rs ↔ r ∈ rs') :
    rs = rs' := by
  have hnodup : ∀ {l : List (Redirection W)}, Ordered l → l.Nodup := by
    intro l hl
    refine hl.imp ?_
    rintro r s hlt rfl
    exact role_ne_of_lt hlt rfl
  have hperm : rs.Perm rs' := (List.perm_ext_iff_of_nodup (hnodup h) (hnodup h')).2 hmem
  refine List.Perm.eq_of_pairwise ?_ h h' hperm
  intro r s _ _ hrs hsr
  rw [← Role.order_swap, hsr] at hrs
  cases hrs

/-- Inserting a redirection replaces the one of its role. -/
theorem mem_insert_iff (h : Ordered rs) : s ∈ r.insert rs ↔ s = r ∨ s ∈ rs ∧ s.role ≠ r.role := by
  induction rs with
  | nil => simp [insert]
  | cons t rs ih =>
      rcases List.pairwise_cons.1 h with ⟨ht, hrs⟩
      rw [insert]
      cases horder : r.role.order t.role with
      | lt =>
          -- Everything in the list comes behind `r`.
          have hne : ∀ u ∈ t :: rs, u.role ≠ r.role := by
            intro u hu
            rcases List.mem_cons.1 hu with rfl | hu
            · exact role_ne_of_lt horder
            · exact role_ne_of_lt (Std.TransCmp.lt_trans horder (ht u hu))
          rw [List.mem_cons]
          exact or_congr_right ⟨fun hs => ⟨hs, hne s hs⟩, And.left⟩
      | eq =>
          -- `t` gives way to `r`, and the rest comes behind both.
          have hrole : r.role = t.role := Role.eq_of_order_eq horder
          have hne : ∀ u ∈ rs, u.role ≠ r.role := fun u hu => hrole ▸ role_ne_of_lt (ht u hu)
          rw [List.mem_cons, List.mem_cons]
          refine or_congr_right ⟨fun hs => ⟨.inr hs, hne s hs⟩, ?_⟩
          rintro ⟨rfl | hs, hsr⟩
          · exact absurd hrole.symm hsr
          · exact hs
      | gt =>
          have hne : t.role ≠ r.role := by
            intro heq
            rw [heq, Role.order_self] at horder
            cases horder
          rw [List.mem_cons, ih hrs, List.mem_cons]
          constructor
          · rintro (rfl | rfl | ⟨hs, hsr⟩)
            · exact .inr ⟨.inl rfl, hne⟩
            · exact .inl rfl
            · exact .inr ⟨.inr hs, hsr⟩
          · rintro (rfl | ⟨rfl | hs, hsr⟩)
            · exact .inr (.inl rfl)
            · exact .inl rfl
            · exact .inr (.inr ⟨hs, hsr⟩)

/-- Inserting keeps the order of roles. -/
theorem Ordered.insert (h : Ordered rs) : Ordered (r.insert rs) := by
  induction rs with
  | nil => exact List.pairwise_singleton _ _
  | cons t rs ih =>
      rcases List.pairwise_cons.1 h with ⟨ht, hrs⟩
      rw [Redirection.insert]
      cases horder : r.role.order t.role with
      | lt =>
          refine List.pairwise_cons.2 ⟨?_, h⟩
          intro u hu
          rcases List.mem_cons.1 hu with rfl | hu
          · exact horder
          · exact Std.TransCmp.lt_trans horder (ht u hu)
      | eq =>
          have hrole : r.role = t.role := Role.eq_of_order_eq horder
          exact List.pairwise_cons.2 ⟨fun u hu => hrole ▸ ht u hu, hrs⟩
      | gt =>
          refine List.pairwise_cons.2 ⟨?_, ih hrs⟩
          intro u hu
          rcases (mem_insert_iff hrs).1 hu with rfl | ⟨hu, -⟩
          · exact Std.OrientedCmp.gt_iff_lt.1 horder
          · exact ht u hu

/-! ## The last redirection of each stream -/

/-- The redirection is written and no later one is for the same stream. -/
def IsLast (rs : List (Redirection W)) (r : Redirection W) : Prop :=
  ∃ front back, rs = front ++ r :: back ∧ ∀ s ∈ back, s.role ≠ r.role

/-- The redirections that no later one overrides, in role order. -/
def lastOfEach (rs : List (Redirection W)) : List (Redirection W) :=
  (rs.pwFilter fun r s => s.role ≠ r.role).mergeSort fun r s => (r.role.order s.role).isLE

/-- The first redirection is the last of its role only if none behind it has that role. -/
theorem isLast_cons_iff :
    IsLast (r :: rs) s ↔ IsLast rs s ∨ s = r ∧ ∀ t ∈ rs, t.role ≠ r.role := by
  constructor
  · rintro ⟨front, back, heq, hback⟩
    cases front with
    | nil =>
        cases heq
        exact .inr ⟨rfl, hback⟩
    | cons t front =>
        cases heq
        exact .inl ⟨front, back, rfl, hback⟩
  · rintro (⟨front, back, rfl, hback⟩ | ⟨rfl, hrs⟩)
    · exact ⟨r :: front, back, rfl, hback⟩
    · exact ⟨[], rs, rfl, hrs⟩

/-- What is left is the last of each role. -/
theorem mem_lastOfEach_iff : s ∈ lastOfEach rs ↔ IsLast rs s := by
  rw [lastOfEach, List.mem_mergeSort]
  induction rs with
  | nil => simp [IsLast]
  | cons r rs ih =>
      -- What is dropped from the rest has a representative there with the same role.
      have hkept : (∀ t ∈ rs.pwFilter fun r s => s.role ≠ r.role, t.role ≠ r.role) ↔
          ∀ t ∈ rs, t.role ≠ r.role := by
        apply List.forall_mem_pwFilter
        intro x y z hxz
        rcases eq_or_ne y.role x.role with hyx | hyx
        · exact .inr (hyx ▸ hxz)
        · exact .inl hyx
      rw [isLast_cons_iff, ← ih, ← hkept]
      by_cases h : ∀ t ∈ rs.pwFilter fun r s => s.role ≠ r.role, t.role ≠ r.role
      · rw [List.pwFilter_cons_of_pos h, List.mem_cons, or_comm]
        exact or_congr_right (and_iff_left h).symm
      · rw [List.pwFilter_cons_of_neg h]
        exact (or_iff_left fun hs => h hs.2).symm

/-- What is left is in the order of roles. -/
theorem ordered_lastOfEach (rs : List (Redirection W)) : Ordered (lastOfEach rs) := by
  have hle : (lastOfEach rs).Pairwise fun r s => (r.role.order s.role).isLE := by
    refine List.pairwise_mergeSort ?_ ?_ _
    · intro a b c hab hbc
      exact Std.TransCmp.isLE_trans hab hbc
    · intro a b
      rw [← Role.order_swap a.role b.role]
      cases a.role.order b.role <;> rfl
  have hne : (lastOfEach rs).Pairwise fun r s => s.role ≠ r.role := by
    refine (List.mergeSort_perm _ _).pairwise_iff ?_ |>.2 (List.pairwise_pwFilter rs)
    intro r s h
    exact h.symm
  refine (hle.and hne).imp ?_
  rintro r s ⟨hrs, hsr⟩
  cases horder : r.role.order s.role with
  | lt => rfl
  | eq => exact absurd (Role.eq_of_order_eq horder).symm hsr
  | gt => simp [horder] at hrs

/-- Adding redirections one after the other keeps the last one of each stream. -/
theorem foldl_insert_eq_lastOfEach (rs : List (Redirection W)) :
    rs.foldl (fun acc r => r.insert acc) [] = lastOfEach rs := by
  have hfold : ∀ acc, Ordered acc → Ordered (rs.foldl (fun acc r => r.insert acc) acc) ∧
      ∀ s, s ∈ rs.foldl (fun acc r => r.insert acc) acc ↔
        IsLast rs s ∨ s ∈ acc ∧ ∀ t ∈ rs, t.role ≠ s.role := by
    induction rs with
    | nil => simp [IsLast]
    | cons r rs ih =>
        intro acc hacc
        rcases ih (r.insert acc) hacc.insert with ⟨hordered, hmem⟩
        refine ⟨hordered, ?_⟩
        intro s
        rw [List.foldl_cons, hmem, mem_insert_iff hacc, isLast_cons_iff, List.forall_mem_cons]
        -- `s` is last in the rest, or it is `r`, or it was there and `r` is for another stream.
        grind
  rcases hfold [] List.Pairwise.nil with ⟨hordered, hmem⟩
  refine hordered.eq_of_mem_iff (ordered_lastOfEach rs) ?_
  intro s
  rw [hmem, mem_lastOfEach_iff]
  simp

end Redirection

/-! ## Stages -/

/-- The text of a word. -/
def Token.word? : Token → Option String
  | .word raw => some raw
  | _ => none

/-- A word, and what the operator in front of it redirects if there is one. -/
structure SignedWord where
  sign : Option (Role × Bool)
  raw : String

/-- The words among tokens, each with the sign of the token in front of it. In front of the first
token stands something with the given sign. -/
def signedWords (front : Option (Role × Bool)) (ts : List Token) : List SignedWord :=
  (ts.zip (front :: ts.map Token.redirects?)).filterMap fun (t, sign) =>
    t.word?.map (SignedWord.mk sign)

namespace SignedWord

def plain? (x : SignedWord) : Option String :=
  if x.sign.isNone then some x.raw else none

/-- An operator and its target, given what a word stands for. -/
def redirection? {W : Type} (word : String → W) (x : SignedWord) : Option (Redirection W) :=
  x.sign.map fun (role, append) => ⟨role, append, word x.raw⟩

end SignedWord

section Stages

variable {W : Type} (word : String → W)

/-- The stage that tokens without a bar stand for. The first word that is no target is the name;
without it the redirections are lost too. -/
def stage? (ts : List Token) : Option (Stage W) :=
  match (signedWords none ts).filterMap SignedWord.plain? with
  | [] => none
  | name :: args =>
      some ⟨word name, args.map word,
        Redirection.lastOfEach ((signedWords none ts).filterMap (SignedWord.redirection? word))⟩

/-- The stages that tokens stand for. -/
def grouped (ts : List Token) : List (Stage W) :=
  (ts.splitOn .pipe).filterMap (stage? word)

end Stages

/-- The part that a segment stands for, given what the texts of substitutions stand for. -/
def Segment.denote (inner : List Char → Pipeline) : Segment → Part
  | .text cs => .text (String.ofList cs)
  | .var name => .var (String.ofList name)
  | .body cs => .substitution (inner cs)

/-- The word that the text of a word token stands for. -/
def spelled (inner : List Char → Pipeline) (raw : String) : Word :=
  (Segment.split raw.toList).map (Segment.denote inner)

/-- The pipeline that a text stands for, with the texts of substitutions taken in for so many
levels. Below the last level a substitution stands for nothing; a text that can be read has none
there. -/
def groupedWithin : Nat → List Char → Pipeline
  | 0, cs => grouped (spelled fun _ => []) (tokens cs)
  | n + 1, cs => grouped (spelled (groupedWithin n)) (tokens cs)

/-! ## The fold -/

theorem signedWords_word (front : Option (Role × Bool)) (raw : String) (ts : List Token) :
    signedWords front (.word raw :: ts) = ⟨front, raw⟩ :: signedWords none ts := rfl

/-- The sign before a word says where the word goes. -/
theorem signedWords_redirection {front : Option (Role × Bool)} {t : Token} {sign : Role × Bool}
    (h : t.redirects? = some sign) (ts : List Token) :
    signedWords front (t :: ts) = signedWords (some sign) ts := by
  cases t with
  | word raw => cases h
  | _ =>
      rw [signedWords, List.map_cons, h]
      rfl

namespace Draft

variable {d : Draft} {word : String → Word} {xs : List SignedWord}

/-- Adds a word, as a target if an operator stands in front of it. -/
def enter (word : String → Word) (d : Draft) (x : SignedWord) : Draft :=
  match x.sign with
  | none => d.addWord (word x.raw)
  | some (role, append) => d.redirect ⟨role, append, word x.raw⟩

/-- Behind the name, words are added to the arguments and redirections to the redirections. -/
theorem finish_foldl_enter_of_named {name : Word} (h : d.name = some name) :
    (xs.foldl (enter word) d).finish =
      [⟨name, d.args ++ (xs.filterMap SignedWord.plain?).map word,
        (xs.filterMap (SignedWord.redirection? word)).foldl (fun acc r => r.insert acc)
          d.redirections⟩] := by
  induction xs generalizing d with
  | nil => simp [finish, h]
  | cons x xs ih =>
      obtain ⟨sign, raw⟩ := x
      cases sign with
      | none =>
          have henter : d.enter word ⟨none, raw⟩ = { d with args := d.args ++ [word raw] } := by
            simp [enter, addWord, h]
          have hname : (d.enter word ⟨none, raw⟩).name = some name := by rw [henter, h]
          rw [List.foldl_cons, ih hname, henter]
          simp [SignedWord.plain?, SignedWord.redirection?, List.filterMap_cons]
      | some sign => exact ih h

/-- The first plain word is the name, and the others are arguments. -/
theorem finish_foldl_enter (hname : d.name = none) (hargs : d.args = []) :
    (xs.foldl (enter word) d).finish =
      match xs.filterMap SignedWord.plain? with
      | [] => []
      | name :: args =>
          [⟨word name, args.map word,
            (xs.filterMap (SignedWord.redirection? word)).foldl (fun acc r => r.insert acc)
              d.redirections⟩] := by
  induction xs generalizing d with
  | nil => simp [finish, hname]
  | cons x xs ih =>
      obtain ⟨sign, raw⟩ := x
      cases sign with
      | none =>
          -- The first word that is no target: from here on the draft has a name.
          have henter : d.enter word ⟨none, raw⟩ = { d with name := some (word raw) } := by
            simp [enter, addWord, hname]
          rw [List.foldl_cons, henter, finish_foldl_enter_of_named rfl]
          simp [SignedWord.plain?, SignedWord.redirection?, List.filterMap_cons, hargs]
      | some sign => exact ih hname hargs

/-- What a draft takes in up to a bar is the stage of the tokens in between. -/
theorem finish_foldl_enter_empty (ts : List Token) :
    ((signedWords none ts).foldl (enter word) {}).finish = (stage? word ts).toList := by
  rw [finish_foldl_enter rfl rfl, stage?, Redirection.foldl_insert_eq_lastOfEach]
  split <;> rfl

end Draft

/-! ## The parser -/

/-- What the reader of substitutions reads is what the texts stand for. -/
def BodyReader.Yields (sub : BodyReader) (inner : List Char → Pipeline) : Prop :=
  ∀ column cs p, sub column cs = .ok p → p = inner cs

/-- Where mapping with errors succeeds, it is a map. -/
theorem mapM_eq_map_of_ok {α β ε : Type} {f : α → Except ε β} {g : α → β}
    (h : ∀ a b, f a = .ok b → b = g a) {l : List α} {bs : List β} (hl : l.mapM f = .ok bs) :
    bs = l.map g := by
  induction l generalizing bs with
  | nil =>
      cases hl
      rfl
  | cons a l ih =>
      rw [List.mapM_cons] at hl
      rcases bind_eq_ok_iff.1 hl with ⟨b, hb, hl⟩
      rcases bind_eq_ok_iff.1 hl with ⟨tail, htail, hl⟩
      cases hl
      rw [List.map_cons, h a b hb, ih htail]

/-- A word is read as its spelling says. -/
theorem readParts_eq_spelled {sub : BodyReader} {inner : List Char → Pipeline}
    (h : sub.Yields inner) {column : Nat} {raw : String} {w : Word}
    (hw : readParts sub column raw = .ok w) : w = spelled inner raw := by
  refine mapM_eq_map_of_ok ?_ hw
  intro seg part hpart
  cases seg with
  | text cs => exact (Except.ok.inj hpart).symm
  | var name => exact (Except.ok.inj hpart).symm
  | body cs =>
      cases hsub : sub column cs with
      | error e => simp [Segment.toPart, hsub, Except.map] at hpart
      | ok stages =>
          simp only [Segment.toPart, hsub, Except.map, Except.ok.injEq] at hpart
          rw [← hpart, h column cs stages hsub, Segment.denote]

namespace Draft

theorem splitOn_cons_of_ne {t : Token} (h : t ≠ .pipe) {ts first : List Token}
    {others : List (List Token)} (hts : ts.splitOn .pipe = first :: others) :
    (t :: ts).splitOn .pipe = (t :: first) :: others := by
  rw [List.splitOn_cons_eq_if_modifyHead, hts]
  simp [h]

/-- A draft takes in the tokens up to the first bar, and each segment behind it is a stage of its
own. -/
theorem read_eq_grouped {sub : BodyReader} {inner : List Char → Pipeline} (hsub : sub.Yields inner)
    {d : Draft} {xs : List Lexeme} {p : Pipeline} (hp : d.read sub xs = .ok p) :
    ∃ first others, (xs.map Lexeme.token).splitOn .pipe = first :: others ∧
      p = ((signedWords none first).foldl (enter (spelled inner)) d).finish ++
        others.filterMap (stage? (spelled inner)) := by
  fun_induction Draft.read sub d xs generalizing p with
  | case1 d => exact ⟨[], [], rfl, by simp [← Except.ok.inj hp, signedWords]⟩
  | case2 d x xs raw htoken ih =>
      rcases bind_eq_ok_iff.1 hp with ⟨w, hw, hrest⟩
      rcases ih w hrest with ⟨first, others, hsplit, rfl⟩
      refine ⟨.word raw :: first, others, ?_, ?_⟩
      · rw [List.map_cons, htoken]
        exact splitOn_cons_of_ne (by simp) hsplit
      · rw [readParts_eq_spelled hsub hw, signedWords_word]
        rfl
  | case3 => cases hp
  | case4 d x role append hop target xs raw htoken _ ih =>
      rcases bind_eq_ok_iff.1 hp with ⟨w, hw, hrest⟩
      rcases ih w hrest with ⟨first, others, hsplit, rfl⟩
      refine ⟨x.token :: .word raw :: first, others, ?_, ?_⟩
      · rw [List.map_cons, List.map_cons, htoken]
        refine splitOn_cons_of_ne ?_ (splitOn_cons_of_ne (by simp) hsplit)
        rintro heq
        rw [heq] at hop
        cases hop
      · rw [readParts_eq_spelled hsub hw, signedWords_redirection hop, signedWords_word]
        rfl
  | case5 => cases hp
  | case6 d x xs hop hword ih =>
      rcases bind_eq_ok_iff.1 hp with ⟨tail, htail, hp⟩
      rcases ih htail with ⟨first, others, hsplit, rfl⟩
      -- A bar ends the stage so far; the words behind it start the next one.
      refine ⟨[], first :: others, ?_, ?_⟩
      · rw [List.map_cons, eq_pipe_of_redirects?_eq_none hop hword,
          List.splitOn_cons_eq_if_modifyHead, hsplit]
        rfl
      · rw [← Except.ok.inj hp, finish_foldl_enter_empty, List.filterMap_cons]
        cases stage? (spelled inner) first <;> rfl

end Draft

/-- An accepted line is grouped as its tokens say. -/
theorem parseWithin_eq_grouped {n : Nat} {cs : List Char} {p : Pipeline}
    (h : parseWithin n cs = .ok p) : p = groupedWithin n cs := by
  have hread : ∀ {sub : BodyReader} {inner : List Char → Pipeline}, sub.Yields inner →
      ∀ {cs p}, ({} : Draft).read sub (lex cs) = .ok p →
        p = grouped (spelled inner) (tokens cs) := by
    intro sub inner hsub cs p hp
    rcases Draft.read_eq_grouped hsub hp with ⟨first, others, hsplit, rfl⟩
    rw [Draft.finish_foldl_enter_empty, grouped, tokens, hsplit, List.filterMap_cons]
    cases stage? (spelled inner) first <;> rfl
  induction n generalizing cs p with
  | zero =>
      -- Nothing is read one level deeper.
      exact hread (fun column cs p hp => by cases hp) h
  | succ n ih => exact hread (fun column cs p hp => ih hp) h

end LineShell
