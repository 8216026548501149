import LineShell.Text.Utf8

/-!
# Decoding — text among other bytes

What is written as text is read back as that text, whatever bytes stand around it: the first byte of
a character ends any broken stretch before it.

* `Utf8.readOn` — the reader as a recursion over the bytes;
* `Utf8.readOn_encodeChar` — the bytes of a character are read as that character;
* `Utf8.decodeLossy_append_encode` — text between other bytes.
-/

namespace LineShell
namespace Utf8

/-! ## Reading forwards -/

/-- The characters of bytes, if `going` is a character that they may go on with. -/
def readOn : Option Partial → Bytes → List (Option Char)
  | none, [] => []
  | some _, [] => [none]
  | going, b :: bs => (step going b).1 ++ readOn (step going b).2 bs

/-- A reader that is fed bytes finds what was found before and what the bytes give. -/
theorem finish_foldl_feed (bs : Bytes) (r : Reader) :
    (bs.foldl Reader.feed r).finish = r.found.reverse ++ readOn r.going bs := by
  induction bs generalizing r with
  | nil =>
      rcases r with ⟨found, _ | p⟩
      · simp [Reader.finish, readOn]
      · simp [Reader.finish, readOn]
  | cons b bs ih => simp [List.foldl_cons, ih, Reader.feed, readOn]

/-- Reading starts with nothing going on. -/
theorem read_eq_readOn (bs : Bytes) : read bs = readOn none bs := by
  rw [read, finish_foldl_feed]
  rfl

/-! ## The bytes of a character -/

/-- A byte that can only stand inside a character. -/
def IsTail (b : UInt8) : Prop :=
  0x80 ≤ b ∧ b ≤ 0xBF

/-- A character goes on with bytes that can only stand inside one. -/
def Partial.WellFormed (p : Partial) : Prop :=
  0x80 ≤ p.low ∧ p.high ≤ 0xBF

theorem wellFormed_of_start {b : UInt8} {p : Partial} (h : (start b).2 = some p) :
    p.WellFormed := by
  rw [start] at h
  split at h
  · cases h
  · cases hlead : Partial.ofLead? b with
    | none =>
        rw [hlead] at h
        cases h
    | some q =>
        rw [hlead] at h
        cases h
        unfold Partial.ofLead? at hlead
        repeat' split at hlead
        all_goals cases hlead
        all_goals
          simp only [Partial.WellFormed]
          decide

/-- A step never leaves a partial character that no byte could complete. -/
theorem wellFormed_of_step {going : Option Partial} {b : UInt8} {p : Partial}
    (h : (step going b).2 = some p) : p.WellFormed := by
  rcases going with _ | q
  · exact wellFormed_of_start h
  · rw [step] at h
    split at h
    · split at h
      · cases h
      · cases h
        simp only [Partial.WellFormed]
        decide
    · exact wellFormed_of_start h

theorem step_none (b : UInt8) : step none b = start b := rfl

/-- A byte that cannot stand inside a character breaks off the one that is going on. -/
theorem readOn_interrupted {p : Partial} (hp : p.WellFormed) {b : UInt8} (hb : ¬ IsTail b)
    (bs : Bytes) :
    readOn (some p) (b :: bs) = none :: readOn none (b :: bs) := by
  have hstep : step (some p) b = (none :: (start b).1, (start b).2) := by
    rw [step, if_neg]
    rintro ⟨hlow, hhigh⟩
    exact hb ⟨UInt8.le_trans hp.1 hlow, UInt8.le_trans hhigh hp.2⟩
  rw [readOn, hstep, readOn]
  rfl

/-- A byte that starts a character ends whatever was going on before it. -/
theorem readOn_append {going : Option Partial} (hgoing : ∀ p, going = some p → p.WellFormed)
    (a : Bytes) {b : UInt8} (hb : ¬ IsTail b) (bs : Bytes) :
    readOn going (a ++ b :: bs) = readOn going a ++ readOn none (b :: bs) := by
  induction a generalizing going with
  | nil =>
      rcases going with _ | p
      · rfl
      · exact readOn_interrupted (hgoing p rfl) hb bs
  | cons c a ih =>
      rw [List.cons_append, readOn, readOn, ih fun p hp => wellFormed_of_step hp, List.append_assoc]

/-- A lead byte of two announces one more byte. -/
theorem start_lead_two : ∀ n : Fin 32, 2 ≤ n.val →
    start (.ofNat (n.val + 192)) = ([], some ⟨1, 0x80, 0xBF, n.val⟩) := by
  decide

/-- A lead byte of three announces two more, with the bounds that keep out surrogates. -/
theorem start_lead_three : ∀ n : Fin 16,
    start (.ofNat (n.val + 224)) =
      ([], some ⟨2, if n.val = 0 then 0xA0 else 0x80, if n.val = 13 then 0x9F else 0xBF,
        n.val⟩) := by
  decide

/-- A lead byte of four announces three more, with the bounds of the last code point. -/
theorem start_lead_four : ∀ n : Fin 5,
    start (.ofNat (n.val + 240)) =
      ([], some ⟨3, if n.val = 0 then 0x90 else 0x80, if n.val = 4 then 0x8F else 0xBF,
        n.val⟩) := by
  decide

/-- A tail byte within the bounds adds its six bits. -/
theorem step_tail {p : Partial} {k : Nat} (hk : k < 64) (hlow : p.low.toNat ≤ k + 128)
    (hhigh : k + 128 ≤ p.high.toNat) :
    step (some p) (.ofNat (k + 128)) =
      if p.missing ≤ 1 then ([some (Char.ofNat (p.value * 64 + k))], none)
      else ([], some ⟨p.missing - 1, 0x80, 0xBF, p.value * 64 + k⟩) := by
  have hbyte : (UInt8.ofNat (k + 128)).toNat = k + 128 := by
    rw [UInt8.toNat_ofNat']
    omega
  have hmod : (k + 128) % 64 = k := by omega
  rw [step, if_pos, hbyte, hmod]
  rw [UInt8.le_iff_toNat_le, UInt8.le_iff_toNat_le, hbyte]
  exact ⟨hlow, hhigh⟩

section Forms

variable {v : Nat} (rest : Bytes)

theorem readOn_one (hv : v ≤ 127) :
    readOn none (.ofNat v :: rest) = some (Char.ofNat v) :: readOn none rest := by
  have hbyte : (UInt8.ofNat v).toNat = v := by
    rw [UInt8.toNat_ofNat']
    omega
  have hstart : start (UInt8.ofNat v) = ([some (Char.ofNat v)], none) := by
    rw [start, if_pos, hbyte]
    rw [UInt8.lt_iff_toNat_lt, hbyte]
    exact Nat.lt_succ_of_le hv
  simp only [readOn, step_none, hstart, List.singleton_append]

theorem readOn_two (hlow : 127 < v) (hhigh : v ≤ 2047) :
    readOn none (.ofNat (v / 64 % 32 + 192) :: .ofNat (v % 64 + 128) :: rest) =
      some (Char.ofNat v) :: readOn none rest := by
  have hlead := start_lead_two ⟨v / 64 % 32, by omega⟩ (by simp only; omega)
  have htail := @step_tail ⟨1, 0x80, 0xBF, v / 64 % 32⟩ (v % 64) (by omega) (by simp)
    (by simp; omega)
  have hvalue : v / 64 % 32 * 64 + v % 64 = v := by omega
  rw [if_pos (Nat.le_refl 1), hvalue] at htail
  simp only [readOn, step_none, hlead, htail, List.nil_append, List.singleton_append]

theorem readOn_three (hlow : 2047 < v) (hhigh : v ≤ 65535) (hvalid : v < 0xD800 ∨ 0xDFFF < v) :
    readOn none (.ofNat (v / 4096 % 16 + 224) :: .ofNat (v / 64 % 64 + 128) ::
      .ofNat (v % 64 + 128) :: rest) = some (Char.ofNat v) :: readOn none rest := by
  -- The bounds of the second byte leave out long forms and surrogates.
  obtain ⟨low, high, hlead, hlower, hupper⟩ : ∃ low high,
      start (.ofNat (v / 4096 % 16 + 224)) = ([], some ⟨2, low, high, v / 4096 % 16⟩) ∧
      low.toNat ≤ v / 64 % 64 + 128 ∧ v / 64 % 64 + 128 ≤ high.toNat := by
    refine ⟨_, _, start_lead_three ⟨v / 4096 % 16, by omega⟩, ?_, ?_⟩
    all_goals dsimp only; split <;> simp <;> omega
  have hsecond := @step_tail ⟨2, low, high, v / 4096 % 16⟩ (v / 64 % 64) (by omega) hlower hupper
  have hthird := @step_tail ⟨1, 0x80, 0xBF, v / 4096 % 16 * 64 + v / 64 % 64⟩ (v % 64) (by omega)
    (by simp) (by simp; omega)
  have hvalue : (v / 4096 % 16 * 64 + v / 64 % 64) * 64 + v % 64 = v := by omega
  rw [if_neg (show ¬ 2 ≤ 1 by decide)] at hsecond
  rw [if_pos (Nat.le_refl 1), hvalue] at hthird
  simp only [readOn, step_none, hlead, hsecond, hthird, List.nil_append, List.singleton_append]

theorem readOn_four (hlow : 65535 < v) (hhigh : v < 0x110000) :
    readOn none (.ofNat (v / 262144 % 8 + 240) :: .ofNat (v / 4096 % 64 + 128) ::
      .ofNat (v / 64 % 64 + 128) :: .ofNat (v % 64 + 128) :: rest) =
      some (Char.ofNat v) :: readOn none rest := by
  -- Here they leave out long forms and what lies above the last character.
  obtain ⟨low, high, hlead, hlower, hupper⟩ : ∃ low high,
      start (.ofNat (v / 262144 % 8 + 240)) = ([], some ⟨3, low, high, v / 262144 % 8⟩) ∧
      low.toNat ≤ v / 4096 % 64 + 128 ∧ v / 4096 % 64 + 128 ≤ high.toNat := by
    refine ⟨_, _, start_lead_four ⟨v / 262144 % 8, by omega⟩, ?_, ?_⟩
    all_goals dsimp only; split <;> simp <;> omega
  have hsecond := @step_tail ⟨3, low, high, v / 262144 % 8⟩ (v / 4096 % 64) (by omega) hlower hupper
  have hthird := @step_tail ⟨2, 0x80, 0xBF, v / 262144 % 8 * 64 + v / 4096 % 64⟩ (v / 64 % 64)
    (by omega) (by simp) (by simp; omega)
  have hfourth := @step_tail ⟨1, 0x80, 0xBF,
    (v / 262144 % 8 * 64 + v / 4096 % 64) * 64 + v / 64 % 64⟩ (v % 64) (by omega) (by simp)
    (by simp; omega)
  have hvalue : ((v / 262144 % 8 * 64 + v / 4096 % 64) * 64 + v / 64 % 64) * 64 + v % 64 = v := by
    omega
  rw [if_neg (show ¬ 3 ≤ 1 by decide)] at hsecond
  rw [if_neg (show ¬ 2 ≤ 1 by decide)] at hthird
  rw [if_pos (Nat.le_refl 1), hvalue] at hfourth
  simp only [readOn, step_none, hlead, hsecond, hthird, hfourth, List.nil_append,
    List.singleton_append]

end Forms

/-- The bytes of a character are read as that character. -/
theorem readOn_encodeChar (c : Char) (rest : Bytes) :
    readOn none (String.utf8EncodeChar c ++ rest) = some c :: readOn none rest := by
  have hvalid : c.val.toNat < 0xD800 ∨ 0xDFFF < c.val.toNat ∧ c.val.toNat < 0x110000 := c.valid
  have hc : Char.ofNat c.val.toNat = c := Char.ofNat_toNat c
  rw [String.utf8EncodeChar]
  generalize c.val.toNat = v at hvalid hc
  rw [← hc]
  split
  · exact readOn_one rest ‹_›
  · split
    · exact readOn_two rest (by omega) ‹_›
    · split
      · exact readOn_three rest (by omega) ‹_› (by omega)
      · exact readOn_four rest (by omega) (by omega)

/-- The first byte of a character cannot stand inside another. -/
theorem encodeChar_eq_cons (c : Char) :
    ∃ b bs, String.utf8EncodeChar c = b :: bs ∧ ¬ IsTail b := by
  have hbyte : ∀ n, n < 128 ∨ 192 ≤ n ∧ n < 256 → ¬ IsTail (UInt8.ofNat n) := by
    rintro n hn ⟨hlow, hhigh⟩
    rw [UInt8.le_iff_toNat_le, UInt8.toNat_ofNat'] at hlow hhigh
    simp only [UInt8.reduceToNat] at hlow hhigh
    omega
  rw [String.utf8EncodeChar]
  split
  · exact ⟨_, _, rfl, hbyte _ (by omega)⟩
  · split
    · exact ⟨_, _, rfl, hbyte _ (by omega)⟩
    · split
      · exact ⟨_, _, rfl, hbyte _ (by omega)⟩
      · exact ⟨_, _, rfl, hbyte _ (by omega)⟩

/-! ## Texts -/

/-- An encoded text is read back character by character. -/
theorem readOn_encode (cs : List Char) (rest : Bytes) :
    readOn none (cs.flatMap String.utf8EncodeChar ++ rest) = cs.map some ++ readOn none rest := by
  induction cs with
  | nil => rfl
  | cons c cs ih =>
      rw [List.flatMap_cons, List.append_assoc, readOn_encodeChar, ih]
      rfl

/-- A text that is not empty is read back between any other bytes. -/
theorem decodeLossy_append_encode (before after : Bytes) {text : String} (h : text ≠ "") :
    decodeLossy (before ++ encode text ++ after) = decodeLossy before ++ text ++
      decodeLossy after := by
  have hread : read (before ++ encode text ++ after) =
      read before ++ text.toList.map some ++ read after := by
    cases hcs : text.toList with
    | nil => exact (h (by rw [← String.toList_inj, hcs]; rfl)).elim
    | cons c cs =>
        -- The text is cut off from what stands before it at the first byte of its first character.
        rcases encodeChar_eq_cons c with ⟨b, bs, hb, htail⟩
        have hsplit : before ++ encode text ++ after =
            before ++ b :: (bs ++ cs.flatMap String.utf8EncodeChar ++ after) := by
          simp [encode, hcs, hb]
        have hback : b :: (bs ++ cs.flatMap String.utf8EncodeChar ++ after) =
            (c :: cs).flatMap String.utf8EncodeChar ++ after := by
          simp [hb]
        rw [read_eq_readOn, hsplit, readOn_append (by simp) before htail, hback, readOn_encode,
          read_eq_readOn, read_eq_readOn, List.append_assoc]
  rw [decodeLossy, hread, ← String.toList_inj]
  simp [decodeLossy, Function.comp_def]

end Utf8
end LineShell
