import LineShell.CommandLine.Invocation
import LineShell.Proofs.Custody
import LineShell.Proofs.Decoding

/-!
# InputLines — the same lines from bytes and from text

The lines of a script file are cut from its text, and those of an input are read from its bytes, one
after the other. A line feed is a byte of its own and no part of another character, so both ways
give the same lines.

* `Text.cutAfter_encode` — bytes are cut where the text is;
* `exists_splitOn` — what stands between line feeds, and what is cut behind them;
* `linesIn?_encode` — the lines of an input that holds a text are those of the text.
-/

namespace LineShell

/-! ## Cutting bytes -/

namespace Text

section Cutting

variable {α : Type} [DecidableEq α] {mark : α} {xs : List α}

/-- What holds no mark stands in one piece with what comes behind it. -/
theorem cutAfter_append (hne : xs ≠ []) (h : mark ∉ xs) (rest : List α) :
    cutAfter mark (xs ++ rest) =
      match cutAfter mark rest with
      | [] => [xs]
      | piece :: pieces => (xs ++ piece) :: pieces := by
  induction xs with
  | nil => exact (hne rfl).elim
  | cons x xs ih =>
      simp only [List.mem_cons, not_or] at h
      have hx : ¬ x = mark := fun heq => h.1 heq.symm
      rw [List.cons_append, cutAfter, if_neg hx]
      cases xs with
      | nil => rfl
      | cons y xs =>
          rw [ih (List.cons_ne_nil _ _) h.2]
          cases cutAfter mark rest <;> rfl

end Cutting

/-- A line feed is no part of another character. -/
theorem lineFeed_not_mem_encodeChar {c : Char} (h : c ≠ '\n') :
    (10 : UInt8) ∉ String.utf8EncodeChar c := by
  have hbyte : ∀ n, n ≠ 10 → n < 256 → (10 : UInt8) ≠ UInt8.ofNat n := by
    intro n hn hlt heq
    have hnat := congrArg UInt8.toNat heq
    rw [UInt8.toNat_ofNat'] at hnat
    simp only [UInt8.reduceToNat] at hnat
    omega
  have hvalue : c.val.toNat ≠ 10 := by
    intro hten
    apply h
    have hc : Char.ofNat c.val.toNat = c := Char.ofNat_toNat c
    rw [← hc, hten]
  rw [String.utf8EncodeChar]
  generalize c.val.toNat = v at hvalue
  -- Every byte of a longer form has a mark in its upper bits, so none is a line feed.
  intro hmem
  split at hmem
  · simp only [List.mem_singleton] at hmem
    exact hbyte v hvalue (by omega) hmem
  · split at hmem
    · simp only [List.mem_cons, List.not_mem_nil, or_false] at hmem
      rcases hmem with hmem | hmem <;> exact hbyte _ (by omega) (by omega) hmem
    · split at hmem
      · simp only [List.mem_cons, List.not_mem_nil, or_false] at hmem
        rcases hmem with hmem | hmem | hmem <;> exact hbyte _ (by omega) (by omega) hmem
      · simp only [List.mem_cons, List.not_mem_nil, or_false] at hmem
        rcases hmem with hmem | hmem | hmem | hmem <;> exact hbyte _ (by omega) (by omega) hmem

theorem encodeChar_ne_nil (c : Char) : String.utf8EncodeChar c ≠ [] := by
  rcases Utf8.encodeChar_eq_cons c with ⟨b, bs, hb, -⟩
  rw [hb]
  exact List.cons_ne_nil _ _

/-- Lines of bytes are the encoded lines of the text. -/
theorem cutAfter_encode (cs : List Char) :
    cutAfter 10 (cs.flatMap String.utf8EncodeChar) =
      (cutAfter '\n' cs).map fun line => line.flatMap String.utf8EncodeChar := by
  induction cs with
  | nil => rfl
  | cons c cs ih =>
      rw [List.flatMap_cons, cutAfter]
      by_cases hc : c = '\n'
      · have hbytes : String.utf8EncodeChar '\n' = [10] := rfl
        subst hc
        rw [hbytes, List.singleton_append, cutAfter, if_pos rfl, if_pos rfl, ih, List.map_cons]
        rfl
      · rw [if_neg hc, cutAfter_append (encodeChar_ne_nil c) (lineFeed_not_mem_encodeChar hc), ih]
        cases cutAfter '\n' cs with
        | nil => simp
        | cons line lines => simp

end Text

/-- An encoded text is decoded to itself. -/
theorem Utf8.decode?_encode (cs : List Char) :
    Utf8.decode? (cs.flatMap String.utf8EncodeChar) = some (String.ofList cs) := by
  have hread : Utf8.read (cs.flatMap String.utf8EncodeChar) = cs.map some := by
    have hon := Utf8.readOn_encode cs []
    rw [List.append_nil] at hon
    rw [Utf8.read_eq_readOn, hon]
    exact List.append_nil _
  have hall : ∀ cs : List Char, (cs.map some).mapM id = some cs := by
    intro cs
    induction cs with
    | nil => rfl
    | cons c cs ih => simp [List.mapM_cons, ih]
  rw [Utf8.decode?, hread, hall]
  rfl

/-! ## Lines -/

namespace CommandLine

/-- What stands between line feeds, and what is cut behind them: all but the last piece get their
line feed back, and the last one is no line if nothing stands there. -/
theorem exists_splitOn (cs : List Char) :
    ∃ ended last, Text.splitOn '\n' cs = ended ++ [last] ∧
      Text.cutAfter '\n' cs = ended.map (· ++ ['\n']) ++ (if last = [] then [] else [last]) := by
  induction cs with
  | nil => exact ⟨[], [], rfl, rfl⟩
  | cons c cs ih =>
      rcases ih with ⟨ended, last, hsplit, hcut⟩
      rw [Text.splitOn, Text.cutAfter, hsplit, hcut]
      by_cases hc : c = '\n'
      · subst hc
        exact ⟨[] :: ended, last, by simp, by simp⟩
      · rw [if_neg hc, if_neg hc]
        cases ended with
        | nil =>
            refine ⟨[], c :: last, rfl, ?_⟩
            cases last <;> simp
        | cons piece ended => exact ⟨(c :: piece) :: ended, last, rfl, by simp⟩

/-- A line break is taken off together with the return before it. -/
theorem withoutEnd_append (line : List Char) : withoutEnd (line ++ ['\n']) = dropReturn line := by
  simp [withoutEnd]

theorem withoutEnd_of_not_mem {line : List Char} (h : '\n' ∉ line) : withoutEnd line = line := by
  unfold withoutEnd
  split
  next rest hreverse =>
    have hmem : '\n' ∈ line.reverse := by simp [hreverse]
    exact (h (List.mem_reverse.1 hmem)).elim
  next => rfl

/-- The lines of a text are cut behind each line break and freed of their ends. -/
theorem linesOf_eq (text : String) :
    linesOf text = (Text.cutAfter '\n' text.toList).map fun line =>
      String.ofList (withoutEnd line) := by
  rcases exists_splitOn text.toList with ⟨ended, last, hsplit, hcut⟩
  have hlast : '\n' ∉ last := Text.not_mem_of_mem_splitOn (by rw [hsplit]; simp)
  rw [linesOf, hcut]
  simp only [hsplit, List.dropLast_concat, List.getLast?_concat, List.map_append, List.map_map]
  have hended : (fun line => String.ofList (withoutEnd line)) ∘ (· ++ ['\n']) =
      fun piece => String.ofList (dropReturn piece) := by
    funext piece
    simp only [Function.comp_apply, withoutEnd_append]
  rw [hended]
  cases last with
  | nil => simp
  | cons c last => simp [withoutEnd_of_not_mem hlast]

/-- An input that holds a text has the lines of the text. -/
theorem linesIn?_encode (text : String) : linesIn? (Utf8.encode text) = some (linesOf text) := by
  have hread : ∀ pieces : List (List Char),
      ((pieces.map fun line => line.flatMap String.utf8EncodeChar).mapM fun line =>
        (Utf8.decode? line).map fun text => String.ofList (withoutEnd text.toList)) =
      some (pieces.map fun line => String.ofList (withoutEnd line)) := by
    intro pieces
    induction pieces with
    | nil => rfl
    | cons piece pieces ih =>
        rw [List.map_cons, List.mapM_cons, ih, Utf8.decode?_encode]
        simp
  rw [linesIn?, Utf8.encode, Text.cutAfter_encode, hread, linesOf_eq]

end CommandLine
end LineShell
