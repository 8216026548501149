import LineShell.Proofs.Cleanness

/-!
# Truncation — where a logged text is cut

A text that is too long for the log is cut between two characters, as far behind as the permitted
number of bytes allows. The number that stands in the place of the rest is the number of its bytes.

* `byteCount_fit_le`, `fit_append` — the start that is kept fits, and every start that fits belongs
  to it;
* `stepBack` — the place of the cut as it is found among the bytes, stepping back from the limit;
* `Cut`, `cut_fit` — both say the same;
* `ShownWithin`, `shownWithin_truncate` — a text as a whole and a text that is cut;
* `logged_text_is_cut_between_characters` — values and lines in the log.
-/

namespace LineShell

theorem Text.byteCount_eq (cs : List Char) :
    Text.byteCount cs = (String.ofList cs).utf8ByteSize := by
  induction cs with
  | nil => rfl
  | cons c cs ih =>
      rw [Text.byteCount, ih, String.ofList_cons, String.utf8ByteSize_append,
        String.utf8ByteSize_singleton]

namespace Log
namespace Policy

/-! ## The start that fits -/

/-- What fits is no longer than the room. -/
theorem byteCount_fit_le (room : Nat) (cs : List Char) : Text.byteCount (fit room cs) ≤ room := by
  induction cs generalizing room with
  | nil => exact Nat.zero_le room
  | cons c cs ih =>
      rw [fit]
      split
      · have htail := ih (room - c.utf8Size)
        rw [Text.byteCount]
        omega
      · exact Nat.zero_le room

/-- A start that fits is kept, and the rest of the room is left for what follows. -/
theorem fit_append {room : Nat} {front : List Char} (h : Text.byteCount front ≤ room)
    (back : List Char) :
    fit room (front ++ back) = front ++ fit (room - Text.byteCount front) back := by
  induction front generalizing room with
  | nil => rfl
  | cons c front ih =>
      rw [Text.byteCount] at h
      have hroom : room - c.utf8Size - Text.byteCount front =
        room - (c.utf8Size + Text.byteCount front) := by omega
      rw [List.cons_append, fit, if_pos (by omega), ih (by omega), hroom]
      rfl

/-! ## The place of the cut -/

/-- Steps back from a place among the bytes of a text, until a character ends there or the text
begins. -/
def stepBack (v : String) : Nat → Nat
  | 0 => 0
  | n + 1 => if String.Pos.Raw.IsValid v ⟨n + 1⟩ then n + 1 else stepBack v n

/-- Stepping back ends at the last boundary. -/
theorem stepBack_eq {v : String} {k n : Nat} (hk : k ≤ n) (hvalid : String.Pos.Raw.IsValid v ⟨k⟩)
    (hgap : ∀ i, k < i → i ≤ n → ¬ String.Pos.Raw.IsValid v ⟨i⟩) : stepBack v n = k := by
  -- On the place where the search begins: each step goes over a place inside a character.
  induction n with
  | zero => exact (Nat.le_zero.1 hk).symm
  | succ n ih =>
      rw [stepBack]
      rcases Nat.lt_or_eq_of_le hk with hlt | rfl
      · rw [if_neg (hgap (n + 1) hlt (Nat.le_refl _))]
        exact ih (Nat.le_of_lt_succ hlt) fun i hi hn => hgap i hi (Nat.le_succ_of_le hn)
      · rw [if_pos hvalid]

/-- `kept` is the longest start of a text that has at most `limit` bytes, and `lost` is the rest,
which is not empty. -/
structure Cut (limit : Nat) (v kept lost : String) : Prop where
  whole : v = kept ++ lost
  fits : kept.utf8ByteSize ≤ limit
  longest : ∀ front back, v = front ++ back → front.utf8ByteSize ≤ limit →
    ∃ more, kept = front ++ more
  some_lost : 0 < lost.utf8ByteSize
  /-- A character ends at the cut, or the text begins there, and it is where stepping back from the
  limit ends. -/
  between : String.Pos.Raw.IsValid v ⟨stepBack v limit⟩
  place : kept.utf8ByteSize = stepBack v limit

/-- What fits is cut between characters, with the count of what is lost. -/
theorem cut_fit {limit : Nat} {v : String} (h : limit < v.utf8ByteSize) :
    ∃ lost, Cut limit v (String.ofList (fit limit v.toList)) lost := by
  obtain ⟨rest, hrest⟩ := fit_isPrefix limit v.toList
  have hwhole : v = String.ofList (fit limit v.toList) ++ String.ofList rest := by
    rw [← String.ofList_append, hrest, String.ofList_toList]
  have hfits : (String.ofList (fit limit v.toList)).utf8ByteSize ≤ limit := by
    rw [← Text.byteCount_eq]
    exact byteCount_fit_le limit v.toList
  have hlongest : ∀ front back, v = front ++ back → front.utf8ByteSize ≤ limit →
      ∃ more, String.ofList (fit limit v.toList) = front ++ more := by
    intro front back hv hfront
    have hroom : Text.byteCount front.toList ≤ limit := by
      rwa [Text.byteCount_eq, String.ofList_toList]
    refine ⟨String.ofList (fit (limit - Text.byteCount front.toList) back.toList), ?_⟩
    rw [hv, String.toList_append, fit_append hroom, String.ofList_append, String.ofList_toList]
  have hvalid : String.Pos.Raw.IsValid v ⟨(String.ofList (fit limit v.toList)).utf8ByteSize⟩ :=
    String.Pos.Raw.isValid_iff_exists_append.2 ⟨_, _, hwhole, rfl⟩
  have hplace : stepBack v limit = (String.ofList (fit limit v.toList)).utf8ByteSize := by
    refine stepBack_eq hfits hvalid fun i hlow hhigh hi => ?_
    -- A place further behind would be the end of a longer start that fits.
    obtain ⟨front, back, hv, hsize⟩ := String.Pos.Raw.isValid_iff_exists_append.1 hi
    cases hsize
    obtain ⟨more, hmore⟩ := hlongest front back hv hhigh
    rw [hmore, String.utf8ByteSize_append] at hlow
    omega
  have hlost : 0 < (String.ofList rest).utf8ByteSize := by
    have hsize := congrArg String.utf8ByteSize hwhole
    rw [String.utf8ByteSize_append] at hsize
    omega
  exact ⟨String.ofList rest, hwhole, hfits, hlongest, hlost, hplace ▸ hvalid, hplace.symm⟩

/-! ## Texts in the log -/

/-- A text of at most `limit` bytes is shown as it is. A longer one is cut, and the number of the
lost bytes stands behind what is kept. -/
def ShownWithin (limit : Nat) (v shown : String) : Prop :=
  (v.utf8ByteSize ≤ limit → shown = v) ∧
    (limit < v.utf8ByteSize → ∃ kept lost, Cut limit v kept lost ∧
      shown = kept ++ "...[truncated " ++ toString lost.utf8ByteSize ++ " bytes]")

/-- What is cut short is the longest front within the limit. -/
theorem shownWithin_truncate (p : Policy) (v : String) :
    ShownWithin p.maxLength v (p.truncate v) := by
  have hsize : Text.byteCount v.toList = v.utf8ByteSize := by
    rw [Text.byteCount_eq, String.ofList_toList]
  unfold truncate
  simp only [hsize]
  refine ⟨fun hfits => if_pos hfits, fun hlong => ?_⟩
  obtain ⟨lost, hcut⟩ := cut_fit hlong
  have hnumber : v.utf8ByteSize - Text.byteCount (fit p.maxLength v.toList) =
    lost.utf8ByteSize := by
    have hwhole := congrArg String.utf8ByteSize hcut.whole
    rw [String.utf8ByteSize_append] at hwhole
    rw [Text.byteCount_eq]
    omega
  refine ⟨_, lost, hcut, ?_⟩
  rw [if_neg (Nat.not_le_of_lt hlong), hnumber]
  rfl

/-- A value that is not hidden, and a line that is logged as it is, are shown as a whole if they
fit. If not, they are cut between two characters, as far behind as the limit allows, whatever the
limit and whatever the characters. -/
theorem logged_text_is_cut_between_characters (p : Policy) (v line : String) :
    (¬ (p.redact = true ∧ looksSensitive v = true) → ShownWithin p.maxLength v (p.redactValue v)) ∧
      (p.verbatim = true → ShownWithin p.maxLength (sanitize line) (p.line line)) := by
  constructor
  · intro hshown
    rw [redactValue, if_neg (by simpa using hshown)]
    exact p.shownWithin_truncate v
  · intro hverbatim
    rw [Policy.line, if_pos hverbatim]
    exact p.shownWithin_truncate (sanitize line)

/-- The limit lies inside the third letter, and in front of the first one. -/
theorem letter_at_limit_is_left_out :
    ¬ (({ maxLength := 5 } : Policy).redact = true ∧ looksSensitive "ééééé" = true) ∧
      ShownWithin 5 "ééééé" (({ maxLength := 5 } : Policy).redactValue "ééééé") ∧
      ({ maxLength := 5 } : Policy).redactValue "ééééé" = "éé...[truncated 6 bytes]" ∧
      ShownWithin 0 "é\\t" (({ verbatim := true, maxLength := 0 } : Policy).line "é\t") ∧
      ({ verbatim := true, maxLength := 0 } : Policy).line "é\t" = "...[truncated 4 bytes]" := by
  have hshown : ¬ (({ maxLength := 5 } : Policy).redact = true ∧
    looksSensitive "ééééé" = true) := by decide
  have hvalue := (logged_text_is_cut_between_characters { maxLength := 5 } "ééééé" "").1 hshown
  have hline :=
    (logged_text_is_cut_between_characters { verbatim := true, maxLength := 0 } "" "é\t").2 rfl
  exact ⟨hshown, hvalue, by decide, hline, by decide⟩

end Policy
end Log
end LineShell
