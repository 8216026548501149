import LineShell.Pipeline.Parser
import LineShell.Proofs.Scanning

/-!
# Chunks — the text of a word, as its reader takes it apart

`Segment.split` keeps what the text of a word means and forgets how it was written. This file keeps
both:

* `Chunk` — a piece of the text, with its spelling `Chunk.written`;
* `chunks` — the pieces in order; nothing is lost (`chunks_written`);
* `readParts_eq_merge` — the word read from the text has one part for each chunk, with neighbouring
  texts joined.

A character is plain text exactly if a `Chunk.literal` stands for it.
-/

namespace LineShell

/-! ## Joining texts -/

namespace Word

/-- Puts a part in front of a word. Text is joined to text, and empty text vanishes. -/
def attach (p : Part) (w : Word) : Word :=
  match p with
  | .text s =>
      if s = "" then w
      else
        match w with
        | .text t :: rest => .text (s ++ t) :: rest
        | rest => .text s :: rest
  | p => p :: w

/-- The word that a list of parts stands for: neighbouring texts joined, empty texts dropped. -/
def merge (ps : List Part) : Word :=
  ps.foldr attach []

@[simp] theorem attach_empty (w : Word) : attach (.text "") w = w := by
  simp [attach]

@[simp] theorem attach_var (name : String) (w : Word) : attach (.var name) w = .var name :: w := rfl

@[simp] theorem attach_substitution (stages : Pipeline) (w : Word) :
    attach (.substitution stages) w = .substitution stages :: w := rfl

/-- Text can be put in front of a word in two goes. -/
theorem attach_text_attach (s t : String) (w : Word) :
    attach (.text s) (attach (.text t) w) = attach (.text (s ++ t)) w := by
  by_cases hs : s = ""
  · simp [hs]
  by_cases ht : t = ""
  · simp [ht]
  -- Both texts are there, and what is left depends on the head of the word.
  have hst : s ++ t ≠ "" := by
    simp [hs]
  cases w with
  | nil => simp [attach, hs, ht]
  | cons p w =>
      cases p with
      | text u => simp [attach, hs, ht, String.append_assoc]
      | var name => simp [attach, hs, ht]
      | substitution stages => simp [attach, hs, ht]

/-- Single characters put in front of a word one after the other are one text. -/
theorem foldr_attach_chars (cs : List Char) (w : Word) :
    (cs.map fun c => Part.text (String.singleton c)).foldr attach w =
      attach (.text (String.ofList cs)) w := by
  induction cs with
  | nil => simp
  | cons c cs ih =>
      have hcs : String.ofList (c :: cs) = String.singleton c ++ String.ofList cs := by
        rw [String.singleton_eq_ofList, ← String.ofList_append]
        rfl
      rw [List.map_cons, List.foldr_cons, ih, attach_text_attach, hcs]

end Word

/-! ## Chunks -/

/-- A piece of the text of a word. -/
inductive Chunk where
  /-- A character that is plain text. -/
  | literal (c : Char)
  /-- A variable named without braces. -/
  | bare (name : List Char)
  /-- A variable named in braces. -/
  | braced (name : List Char)
  /-- A substitution; one that is not `closed` takes all that follows. -/
  | substitution (inner : List Char) (closed : Bool)
  deriving DecidableEq, Repr

namespace Chunk

/-- A chunk as it stands in the text of a word. -/
def written : Chunk → List Char
  | .literal c => [c]
  | .bare name => '$' :: name
  | .braced name => '$' :: '{' :: name ++ ['}']
  | .substitution inner closed => '$' :: '(' :: inner ++ (if closed then [')'] else [])

/-- The part that a chunk stands for. -/
def toPart (sub : BodyReader) (column : Nat) : Chunk → Except SyntaxError Part
  | .literal c => .ok (.text (String.singleton (unprotect c)))
  | .bare name => .ok (.var (String.ofList name))
  | .braced name => .ok (.var (String.ofList name))
  | .substitution inner _ => (sub column inner).map Part.substitution

end Chunk

/-- Whether the text behind an opening parenthesis closes it. -/
def closes (cs : List Char) : Bool :=
  (Body.opened.split? cs).isSome

/-- The chunks of the text of a word. -/
def chunks (cs : List Char) : List Chunk :=
  match cs with
  | [] => []
  | '$' :: '(' :: cs =>
      have := length_substitutionBody_le cs
      .substitution (substitutionBody cs).1 (closes cs) :: chunks (substitutionBody cs).2
  | '$' :: '{' :: cs =>
      match h : Segment.braced? cs with
      | none => .literal '$' :: chunks ('{' :: cs)
      | some (name, rest) =>
          have := Segment.length_braced?_lt h
          if isName name then .braced name :: chunks rest
          else ('$' :: '{' :: name ++ ['}']).map Chunk.literal ++ chunks rest
  | '$' :: cs =>
      let name := leadingName cs
      if name.isEmpty then .literal '$' :: chunks cs
      else .bare name :: chunks (cs.drop name.length)
  | c :: cs => .literal c :: chunks cs
termination_by cs.length
decreasing_by all_goals simp_all <;> omega

/-! ## Chunks at the head of a text -/

/-- Anything but a dollar sign is a chunk of its own. -/
theorem chunks_literal {c : Char} (hc : c ≠ '$') (rest : List Char) :
    chunks (c :: rest) = .literal c :: chunks rest := by
  rw [chunks]
  · exact fun _ h => absurd h hc
  · exact fun _ h => absurd h hc
  · exact fun h => absurd h hc

theorem chunks_literals {cs : List Char} (hcs : '$' ∉ cs) (rest : List Char) :
    chunks (cs ++ rest) = cs.map Chunk.literal ++ chunks rest := by
  induction cs with
  | nil => rfl
  | cons c cs ih =>
      simp only [List.mem_cons, not_or] at hcs
      rw [List.cons_append, chunks_literal (Ne.symm hcs.1), ih hcs.2]
      rfl

/-- A balanced body up to its parenthesis is one chunk. -/
theorem chunks_substitution {inner : List Char} (h : Body.Balanced inner) (rest : List Char) :
    chunks ('$' :: '(' :: inner ++ ')' :: rest) = .substitution inner true :: chunks rest := by
  have hsplit := (@Body.split?_eq_self_iff_balanced inner rest).2 h
  simp only [List.cons_append]
  rw [chunks]
  simp [substitutionBody, closes, hsplit]

/-- A braced reference ends at the first closing brace. -/
theorem braced?_eq_some_iff {cs name rest : List Char} :
    Segment.braced? cs = some (name, rest) ↔ cs = name ++ '}' :: rest ∧ '}' ∉ name := by
  unfold Segment.braced?
  constructor
  · intro h
    split at h
    · cases h
    · rename_i d tail heq
      simp only [Option.some.injEq, Prod.mk.injEq] at h
      rcases h with ⟨rfl, rfl⟩
      have hd : d = '}' := by
        have hne : cs.dropWhile (· != '}') ≠ [] := by simp [heq]
        have hhead := List.head_dropWhile_not (· != '}') hne
        simpa [heq] using hhead
      subst hd
      -- What is dropped begins with the first closing brace, so the name holds none.
      refine ⟨?_, ?_⟩
      · rw [← heq, List.takeWhile_append_dropWhile]
      · intro hmem
        have hall := List.all_eq_true.1 (List.all_takeWhile (p := (· != '}')) (l := cs)) _ hmem
        simp at hall
  · rintro ⟨rfl, hname⟩
    have hall : ∀ c ∈ name, (c != '}') = true := by
      intro c hc
      simp only [bne_iff_ne, ne_eq]
      rintro rfl
      exact hname hc
    rw [List.dropWhile_append_of_pos hall, List.takeWhile_append_of_pos hall]
    simp

theorem isNameRest_of_mem {name : List Char} (h : isName name = true) {c : Char} (hc : c ∈ name) :
    isNameRest c = true := by
  cases name with
  | nil => cases hc
  | cons d name =>
      simp only [isName, Bool.and_eq_true, List.all_eq_true] at h
      rcases List.mem_cons.1 hc with rfl | hmem
      · have hstart := h.1
        simp only [isNameStart, Bool.or_eq_true] at hstart
        rcases hstart with hupper | hscore
        · simp [isNameRest, hupper]
        · simp [isNameRest, hscore]
      · exact h.2 c hmem

theorem not_mem_of_isName {name : List Char} {c : Char} (h : isName name = true)
    (hc : isNameRest c = false) : c ∉ name := by
  intro hmem
  have hrest := isNameRest_of_mem h hmem
  simp [hc] at hrest

/-- A name in braces is one chunk. -/
theorem chunks_braced {name : List Char} (h : isName name = true) (rest : List Char) :
    chunks ('$' :: '{' :: name ++ '}' :: rest) = .braced name :: chunks rest := by
  have hbraced : Segment.braced? (name ++ '}' :: rest) = some (name, rest) :=
    braced?_eq_some_iff.2 ⟨rfl, not_mem_of_isName h (by decide)⟩
  simp only [List.cons_append]
  rw [chunks]
  split
  · simp_all
  · simp_all

/-! ## Nothing is lost -/

/-- The text of a substitution and what is left behind it make up what was read. -/
theorem written_substitutionBody (cs : List Char) :
    (Chunk.substitution (substitutionBody cs).1 (closes cs)).written ++ (substitutionBody cs).2 =
      '$' :: '(' :: cs := by
  unfold substitutionBody closes
  cases h : Body.opened.split? cs with
  | none => simp [Chunk.written]
  | some r =>
      have hcs := Body.eq_append_close_of_split? (by decide) h
      simp [Chunk.written, ← hcs]

theorem flatMap_written_literals (cs : List Char) :
    (cs.map Chunk.literal).flatMap Chunk.written = cs := by
  induction cs with
  | nil => rfl
  | cons c cs ih => simp [Chunk.written, ih]

/-- The chunks of a text, written one after the other, are the text. -/
theorem chunks_written (cs : List Char) : (chunks cs).flatMap Chunk.written = cs := by
  fun_induction chunks cs with
  | case1 => rfl
  | case2 cs _ ih =>
      rw [List.flatMap_cons, ih, written_substitutionBody]
  | case3 cs h ih =>
      rw [List.flatMap_cons, ih]
      rfl
  | case4 cs name rest h _ hname ih =>
      rcases braced?_eq_some_iff.1 h with ⟨rfl, -⟩
      rw [List.flatMap_cons, ih]
      simp [Chunk.written]
  | case5 cs name rest h _ hname ih =>
      rcases braced?_eq_some_iff.1 h with ⟨rfl, -⟩
      rw [List.flatMap_append, ih, flatMap_written_literals]
      simp
  | case6 cs _ _ name hname ih =>
      rw [List.flatMap_cons, ih]
      rfl
  | case7 cs _ _ name hname ih =>
      -- The name is a front of what follows, so putting it back in front gives that again.
      have hcs : name ++ cs.drop name.length = cs :=
        List.prefix_iff_eq_append.1 (leadingName_isPrefix cs)
      rw [List.flatMap_cons, ih]
      simp [Chunk.written, hcs]
  | case8 c cs _ _ _ ih =>
      rw [List.flatMap_cons, ih]
      rfl

/-! ## Places in a text -/

/-- The chunk `k` stands at place `j` of a text. -/
def ChunkAt (raw : List Char) (j : Nat) (k : Chunk) : Prop :=
  ∃ front back, chunks raw = front ++ k :: back ∧ (front.flatMap Chunk.written).length = j

section Covers

variable {α : Type} {f : α → List Char}

/-- Every place in a flattened list lies within the image of one element. -/
theorem exists_cover {l : List α} {i : Nat} (h : i < (l.flatMap f).length) :
    ∃ front a back, l = front ++ a :: back ∧ (front.flatMap f).length ≤ i ∧
      i < (front.flatMap f).length + (f a).length := by
  induction l generalizing i with
  | nil => simp at h
  | cons a l ih =>
      by_cases hi : i < (f a).length
      · exact ⟨[], a, l, rfl, by simp, by simpa using hi⟩
      · have htail : i - (f a).length < (l.flatMap f).length := by
          simp only [List.flatMap_cons, List.length_append] at h
          omega
        rcases ih htail with ⟨front, b, back, rfl, hle, hlt⟩
        refine ⟨a :: front, b, back, rfl, ?_, ?_⟩
        · simp only [List.flatMap_cons, List.length_append]
          omega
        · simp only [List.flatMap_cons, List.length_append]
          omega

/-- The element whose image covers a place is the only one. -/
theorem cover_unique {front front' back back' : List α} {a a' : α} {i : Nat}
    (h : front ++ a :: back = front' ++ a' :: back')
    (hle : (front.flatMap f).length ≤ i) (hlt : i < (front.flatMap f).length + (f a).length)
    (hle' : (front'.flatMap f).length ≤ i)
    (hlt' : i < (front'.flatMap f).length + (f a').length) : front = front' ∧ a = a' := by
  induction front generalizing front' i with
  | nil =>
      cases front' with
      | nil => exact ⟨rfl, (List.cons.inj h).1⟩
      | cons b front' =>
          rcases List.cons.inj h with ⟨rfl, -⟩
          simp only [List.flatMap_nil, List.length_nil, List.flatMap_cons, List.length_append] at *
          omega
  | cons b front ih =>
      cases front' with
      | nil =>
          rcases List.cons.inj h with ⟨rfl, -⟩
          simp only [List.flatMap_nil, List.length_nil, List.flatMap_cons, List.length_append] at *
          omega
      | cons b' front' =>
          rcases List.cons.inj h with ⟨rfl, htail⟩
          simp only [List.flatMap_cons, List.length_append] at hle hlt hle' hlt'
          have htail := @ih front' (i - (f b).length) htail (by omega) (by omega) (by omega)
            (by omega)
          exact ⟨congrArg (b :: ·) htail.1, htail.2⟩

end Covers

namespace ChunkAt

/-- Every place of a text belongs to a chunk. -/
theorem exists_of_lt {raw : List Char} {i : Nat} (h : i < raw.length) :
    ∃ j k, ChunkAt raw j k ∧ j ≤ i ∧ i < j + k.written.length := by
  rw [← chunks_written raw] at h
  rcases exists_cover h with ⟨front, k, back, hchunks, hle, hlt⟩
  exact ⟨_, k, ⟨front, back, hchunks, rfl⟩, hle, hlt⟩

/-- No place of a text belongs to two chunks. -/
theorem unique {raw : List Char} {i j j' : Nat} {k k' : Chunk} (h : ChunkAt raw j k)
    (h' : ChunkAt raw j' k') (hi : j ≤ i ∧ i < j + k.written.length)
    (hi' : j' ≤ i ∧ i < j' + k'.written.length) : j = j' ∧ k = k' := by
  rcases h with ⟨front, back, hchunks, rfl⟩
  rcases h' with ⟨front', back', hchunks', rfl⟩
  rcases cover_unique (hchunks ▸ hchunks') hi.1 hi.2 hi'.1 hi'.2 with ⟨rfl, rfl⟩
  exact ⟨rfl, rfl⟩

/-- A chunk stands in the text as it is written. -/
theorem eq_append {raw : List Char} {j : Nat} {k : Chunk} (h : ChunkAt raw j k) :
    ∃ a b, raw = a ++ (k.written ++ b) ∧ a.length = j := by
  rcases h with ⟨front, back, hchunks, rfl⟩
  refine ⟨front.flatMap Chunk.written, back.flatMap Chunk.written, ?_, rfl⟩
  have hraw := chunks_written raw
  rw [hchunks, List.flatMap_append, List.flatMap_cons] at hraw
  exact hraw.symm

end ChunkAt

/-- An element that is not the first one stands behind it. -/
theorem exists_of_cons_eq_append {k k' : Chunk} {ks front back : List Chunk}
    (hk : k' ≠ k) (h : k' :: ks = front ++ k :: back) :
    ∃ front', front = k' :: front' ∧ ks = front' ++ k :: back := by
  cases front with
  | nil => exact absurd (List.cons.inj h).1 hk
  | cons d front =>
      rcases List.cons.inj h with ⟨rfl, htail⟩
      exact ⟨front, rfl, htail⟩

/-- Behind plain characters, chunks of another kind are found where they begin. -/
theorem exists_of_literals_append {cs : List Char} {ks front back : List Chunk} {k : Chunk}
    (hk : ∀ c, Chunk.literal c ≠ k) (h : cs.map Chunk.literal ++ ks = front ++ k :: back) :
    ∃ front', front = cs.map Chunk.literal ++ front' ∧ ks = front' ++ k :: back := by
  induction cs generalizing front with
  | nil => exact ⟨front, rfl, h⟩
  | cons c cs ih =>
      rcases exists_of_cons_eq_append (hk c) h with ⟨front, rfl, htail⟩
      rcases ih htail with ⟨front', rfl, hks⟩
      exact ⟨front', rfl, hks⟩

/-- A substitution among the chunks is what the scanner finds at its place. -/
theorem substitution_of_chunks {raw : List Char} {front back : List Chunk} {inner : List Char}
    {closed : Bool} (h : chunks raw = front ++ .substitution inner closed :: back) :
    ∃ cs, raw = front.flatMap Chunk.written ++ '$' :: '(' :: cs ∧
      inner = (substitutionBody cs).1 ∧ closed = closes cs := by
  fun_induction chunks raw generalizing front with
  | case1 => simp at h
  | case2 cs _ ih =>
      cases front with
      | nil =>
          have hhead := (List.cons.inj h).1
          simp only [Chunk.substitution.injEq] at hhead
          exact ⟨cs, rfl, hhead.1.symm, hhead.2.symm⟩
      | cons k front =>
          rcases List.cons.inj h with ⟨rfl, htail⟩
          rcases ih htail with ⟨ds, hds, hinner⟩
          refine ⟨ds, ?_, hinner⟩
          rw [List.flatMap_cons, List.append_assoc, ← hds, written_substitutionBody]
  | case3 cs hb ih =>
      -- From here on the head is no substitution, so the one in question stands behind it.
      rcases exists_of_cons_eq_append (by simp) h with ⟨front, rfl, htail⟩
      rcases ih htail with ⟨ds, hds, hinner⟩
      exact ⟨ds, by simp [Chunk.written, hds], hinner⟩
  | case4 cs name rest hb _ hname ih =>
      rcases braced?_eq_some_iff.1 hb with ⟨rfl, -⟩
      rcases exists_of_cons_eq_append (by simp) h with ⟨front, rfl, htail⟩
      rcases ih htail with ⟨ds, rfl, hinner⟩
      exact ⟨ds, by simp [Chunk.written], hinner⟩
  | case5 cs name rest hb _ hname ih =>
      rcases braced?_eq_some_iff.1 hb with ⟨rfl, -⟩
      rcases exists_of_literals_append (by simp) h with ⟨front, rfl, htail⟩
      rcases ih htail with ⟨ds, rfl, hinner⟩
      refine ⟨ds, ?_, hinner⟩
      rw [List.flatMap_append, flatMap_written_literals]
      simp
  | case6 cs _ _ name hname =>
      rename_i ih
      rcases exists_of_cons_eq_append (by simp) h with ⟨front, rfl, htail⟩
      rcases ih htail with ⟨ds, rfl, hinner⟩
      exact ⟨ds, by simp [Chunk.written], hinner⟩
  | case7 cs _ _ name hname =>
      rename_i ih
      have hcs : name ++ cs.drop name.length = cs :=
        List.prefix_iff_eq_append.1 (leadingName_isPrefix cs)
      rcases exists_of_cons_eq_append (by simp) h with ⟨front, rfl, htail⟩
      rcases ih htail with ⟨ds, hds, hinner⟩
      refine ⟨ds, ?_, hinner⟩
      rw [List.flatMap_cons, List.append_assoc, ← hds]
      simp [Chunk.written, hcs]
  | case8 c cs _ _ _ ih =>
      rcases exists_of_cons_eq_append (by simp) h with ⟨front, rfl, htail⟩
      rcases ih htail with ⟨ds, rfl, hinner⟩
      exact ⟨ds, by simp [Chunk.written], hinner⟩

/-- Where a substitution stands there are its opening signs, and its body is what the scanner gives.
-/
theorem ChunkAt.substitution_eq {raw : List Char} {j : Nat} {inner : List Char} {closed : Bool}
    (h : ChunkAt raw j (.substitution inner closed)) :
    ∃ a cs, raw = a ++ '$' :: '(' :: cs ∧ a.length = j ∧ inner = (substitutionBody cs).1 ∧
      closed = closes cs := by
  rcases h with ⟨front, back, hchunks, rfl⟩
  rcases substitution_of_chunks hchunks with ⟨cs, hraw, hinner, hclosed⟩
  exact ⟨_, cs, hraw, rfl, hinner, hclosed⟩

/-! ## One part for each chunk -/

section Lists

variable {α β ε : Type} {f : α → Except ε β} {a : α} {l : List α}

theorem mapM_cons_of_ok {b : β} (h : f a = .ok b) :
    (a :: l).mapM f = (l.mapM f).map (b :: ·) := by
  rw [List.mapM_cons, h]
  cases l.mapM f <;> rfl

theorem mapM_cons_of_error {e : ε} (h : f a = .error e) : (a :: l).mapM f = .error e := by
  rw [List.mapM_cons, h]
  rfl

/-- If the front is mapped without an error, so is what follows, on its own. -/
theorem mapM_append_of_ok {l' : List α} {bs : List β} (h : l.mapM f = .ok bs) :
    (l ++ l').mapM f = (l'.mapM f).map (bs ++ ·) := by
  rw [List.mapM_append, h]
  cases l'.mapM f <;> rfl

theorem map_map_except {γ δ : Type} (x : Except ε β) (g : β → γ) (h : γ → δ) :
    (x.map g).map h = x.map (h ∘ g) := by
  cases x <;> rfl

end Lists

section Parts

variable {sub : BodyReader} {column : Nat}

theorem toPart_var (name : List Char) :
    Segment.toPart sub column (.var name) = .ok (.var (String.ofList name)) := rfl

/-- A body can only become a substitution. -/
theorem exists_of_toPart_body {inner : List Char} {p : Part}
    (h : Segment.toPart sub column (.body inner) = .ok p) :
    ∃ stages, p = .substitution stages := by
  cases hsub : sub column inner with
  | error e => simp [Segment.toPart, hsub, Except.map] at h
  | ok stages =>
      simp only [Segment.toPart, hsub, Except.map, Except.ok.injEq] at h
      exact ⟨stages, h.symm⟩

/-- Text in front of segments becomes text in front of their parts. -/
theorem mapM_toPart_pushText {cs : List Char} (hcs : cs ≠ []) (segs : List Segment) :
    (Segment.pushText cs segs).mapM (Segment.toPart sub column) =
      (segs.mapM (Segment.toPart sub column)).map (Word.attach (.text (String.ofList cs))) := by
  have hne : String.ofList cs ≠ "" := by simpa using hcs
  have hfront : Segment.toPart sub column (.text cs) = .ok (.text (String.ofList cs)) := rfl
  cases segs with
  | nil =>
      simp only [Segment.pushText]
      rw [mapM_cons_of_ok hfront]
      simp [Word.attach, hne, Except.map, pure, Except.pure]
  | cons seg segs =>
      cases seg with
      | text ds =>
          have hjoined : Segment.toPart sub column (.text (cs ++ ds)) =
              .ok (.text (String.ofList cs ++ String.ofList ds)) := by
            simp [Segment.toPart]
          have hds : Segment.toPart sub column (.text ds) = .ok (.text (String.ofList ds)) := rfl
          simp only [Segment.pushText]
          rw [mapM_cons_of_ok hjoined, mapM_cons_of_ok hds, map_map_except]
          congr 1
          funext w
          simp [Word.attach, hne]
      | var name =>
          simp only [Segment.pushText]
          rw [mapM_cons_of_ok hfront, mapM_cons_of_ok (toPart_var name), map_map_except,
            map_map_except]
          congr 1
          funext w
          simp [Word.attach, hne]
      | body inner =>
          -- Text and substitution stay apart, and both sides fail if the substitution does.
          simp only [Segment.pushText]
          rw [mapM_cons_of_ok hfront]
          cases hsub : Segment.toPart sub column (.body inner) with
          | error e =>
              rw [mapM_cons_of_error hsub]
              rfl
          | ok p =>
              rcases exists_of_toPart_body hsub with ⟨stages, rfl⟩
              rw [mapM_cons_of_ok hsub, map_map_except, map_map_except]
              congr 1
              funext w
              simp [Word.attach, hne]

/-- Literal chunks become the texts of their characters, with the protection taken off. -/
theorem mapM_toPart_literals (cs : List Char) :
    (cs.map Chunk.literal).mapM (Chunk.toPart sub column) =
      .ok ((cs.map unprotect).map fun c => Part.text (String.singleton c)) := by
  induction cs with
  | nil => rfl
  | cons c cs ih =>
      have hc : Chunk.toPart sub column (.literal c) =
          .ok (.text (String.singleton (unprotect c))) := rfl
      rw [List.map_cons, mapM_cons_of_ok hc, ih]
      rfl

/-- A part in front of the others is attached to the word they merge to. -/
theorem merge_mapM_cons {k : Chunk} {p : Part} {ks : List Chunk}
    (h : k.toPart sub column = .ok p) :
    ((k :: ks).mapM (Chunk.toPart sub column)).map Word.merge =
      ((ks.mapM (Chunk.toPart sub column)).map Word.merge).map (Word.attach p) := by
  rw [mapM_cons_of_ok h, map_map_except, map_map_except]
  rfl

/-- Literal chunks in front of the others become one text in front of their word. -/
theorem merge_mapM_literals (cs : List Char) (ks : List Chunk) :
    ((cs.map Chunk.literal ++ ks).mapM (Chunk.toPart sub column)).map Word.merge =
      ((ks.mapM (Chunk.toPart sub column)).map Word.merge).map
        (Word.attach (.text (String.ofList (cs.map unprotect)))) := by
  rw [mapM_append_of_ok (mapM_toPart_literals cs), map_map_except, map_map_except]
  congr 1
  funext ps
  simp only [Function.comp_apply, Word.merge, List.foldr_append, Word.foldr_attach_chars]

/-- Reading the parts of a text takes one chunk after the other. -/
theorem mapM_split_eq_merge (cs : List Char) :
    (Segment.split cs).mapM (Segment.toPart sub column) =
      ((chunks cs).mapM (Chunk.toPart sub column)).map Word.merge := by
  fun_induction chunks cs with
  | case1 =>
      rw [Segment.split]
      rfl
  | case2 cs _ ih =>
      -- Both readers hand the same text to `sub`, and fail together if it does.
      rw [Segment.split]
      cases hsub : sub column (substitutionBody cs).1 with
      | error e =>
          rw [mapM_cons_of_error (e := e) (by simp [Segment.toPart, hsub, Except.map]),
            mapM_cons_of_error (e := e) (by simp [Chunk.toPart, hsub, Except.map])]
          rfl
      | ok stages =>
          rw [mapM_cons_of_ok (b := .substitution stages)
              (by simp [Segment.toPart, hsub, Except.map]),
            merge_mapM_cons (p := .substitution stages)
              (by simp [Chunk.toPart, hsub, Except.map]), ih]
          rfl
  | case3 cs h ih =>
      -- No closing brace follows, so the dollar sign is text.
      have hsplit : Segment.split ('$' :: '{' :: cs) =
          Segment.pushText ['$'] (Segment.split ('{' :: cs)) := by
        rw [Segment.split]
        split
        · rfl
        · simp_all
      rw [hsplit, mapM_toPart_pushText (by simp), ih, merge_mapM_cons rfl]
      rfl
  | case4 cs name rest h _ hname ih =>
      have hsplit : Segment.split ('$' :: '{' :: cs) = .var name :: Segment.split rest := by
        rw [Segment.split]
        split
        · simp_all
        · simp_all
      rw [hsplit, mapM_cons_of_ok (toPart_var name), ih, merge_mapM_cons rfl]
      rfl
  | case5 cs name rest h _ hname ih =>
      -- Braces around something that is no name are text, with its marks undone.
      have hsplit : Segment.split ('$' :: '{' :: cs) =
          Segment.pushText (('$' :: '{' :: name ++ ['}']).map unprotect) (Segment.split rest) := by
        rw [Segment.split]
        split
        · simp_all
        · simp_all [unprotect, protectedDollar]
      rw [hsplit, mapM_toPart_pushText (by simp), ih, merge_mapM_literals]
  | case6 cs hp hb name hname ih =>
      -- No name follows, so the dollar sign is text.
      have hsplit : Segment.split ('$' :: cs) = Segment.pushText ['$'] (Segment.split cs) := by
        rw [Segment.split]
        · simp_all [name]
        · exact hp
        · exact hb
      rw [hsplit, mapM_toPart_pushText (by simp), ih, merge_mapM_cons rfl]
      rfl
  | case7 cs hp hb name hname ih =>
      have hsplit : Segment.split ('$' :: cs) =
          .var name :: Segment.split (cs.drop name.length) := by
        rw [Segment.split]
        · simp_all [name]
        · exact hp
        · exact hb
      rw [hsplit, mapM_cons_of_ok (toPart_var name), ih, merge_mapM_cons rfl]
      rfl
  | case8 c cs hp hb hd ih =>
      have hsplit : Segment.split (c :: cs) =
          Segment.pushText [unprotect c] (Segment.split cs) := by
        rw [Segment.split]
        · exact hp
        · exact hb
        · exact hd
      rw [hsplit, mapM_toPart_pushText (by simp), ih, merge_mapM_cons rfl]
      rfl

/-- The word read from a text: one part for each chunk, neighbouring texts joined. -/
theorem readParts_eq_merge (raw : String) :
    readParts sub column raw =
      ((chunks raw.toList).mapM (Chunk.toPart sub column)).map Word.merge :=
  mapM_split_eq_merge raw.toList

end Parts

end LineShell
