import Mathlib.Data.List.Induction
import Mathlib.Data.Nat.Digits.Defs
import LineShell.Builtin.Flow
import LineShell.Proofs.Execution

/-!
# Numerals — the number at the head of an argument

The argument of `exit` is read up to the first character that does not belong to a number: white
space, a sign and digits, as many of each as there are. This file says which number that is, for any
number of digits, and what becomes of it as a status. A number of at most 63 bits is brought into
the range of a status. Beyond that `exit` reads zero, so the status is no longer the nearest one in
range.

* `decimal` — the number that digits stand for;
* `HasNumber` — a text cut into white space, a sign, digits and the rest;
* `exists_hasNumber`, `HasNumber.unique` — every text can be cut in one way;
* `HasNumber.exitStatus_eq` — the status, from the number;
* `exit_saturates_iff` — which numbers are brought into range;
* `long_number_exits_with_zero` — one that is not.
-/

namespace LineShell

open Builtin

/-! ## Numbers in texts -/

/-- The number that digits stand for; the last one has the lowest place. -/
def decimal (digits : List Char) : Nat :=
  Nat.ofDigits 10 (digits.reverse.map fun c => c.toNat - 48)

/-- An optional sign, and the factor that it stands for. -/
inductive Sign : List Char → Int → Prop where
  | none : Sign [] 1
  | plus : Sign ['+'] 1
  | minus : Sign ['-'] (-1)

def Unsigned (sign text : List Char) : Prop :=
  sign = [] → ∀ c ∈ text.head?, c ≠ '+' ∧ c ≠ '-'

/-- The text starts with white space, a sign and digits, which make up the number `n`. Each of the
three may be missing, and none of them could be longer. -/
inductive HasNumber (text : List Char) (n : Int) : Prop where
  | intro {blanks sign digits rest : List Char} {factor : Int}
      (cut : text = blanks ++ (sign ++ (digits ++ rest)))
      (blank : ∀ c ∈ blanks, Text.isSpace c = true)
      (noBlank : ∀ c ∈ (sign ++ (digits ++ rest)).head?, Text.isSpace c = false)
      (signed : Sign sign factor)
      (noSign : Unsigned sign (digits ++ rest))
      (digit : ∀ c ∈ digits, c.isDigit = true)
      (noDigit : ∀ c ∈ rest.head?, c.isDigit = false)
      (value : n = factor * decimal digits)

section Cutting

variable {p : Char → Bool} {front rest : List Char}

/-- A text is cut in front of the first character that is not of a kind. -/
theorem exists_leading (p : Char → Bool) (text : List Char) :
    ∃ front rest, text = front ++ rest ∧ (∀ c ∈ front, p c = true) ∧ ∀ c ∈ rest.head?,
      p c = false := by
  induction text with
  | nil => exact ⟨[], [], rfl, by simp, by simp⟩
  | cons c text ih =>
      cases hc : p c with
      | true =>
          rcases ih with ⟨front, rest, rfl, hfront, hrest⟩
          exact ⟨c :: front, rest, rfl, by simpa [hc] using hfront, hrest⟩
      | false => exact ⟨[], c :: text, rfl, by simp, by simpa using hc⟩

/-- What is taken is the part before the cut. -/
theorem takeWhile_of_cut (hfront : ∀ c ∈ front, p c = true)
    (hrest : ∀ c ∈ rest.head?, p c = false) :
    (front ++ rest).takeWhile p = front := by
  rw [List.takeWhile_append_of_pos hfront]
  cases rest with
  | nil => simp
  | cons c rest => simp [hrest c rfl]

/-- What is left is the part behind the cut. -/
theorem dropWhile_of_cut (hfront : ∀ c ∈ front, p c = true)
    (hrest : ∀ c ∈ rest.head?, p c = false) :
    (front ++ rest).dropWhile p = rest := by
  rw [List.dropWhile_append_of_pos hfront]
  cases rest with
  | nil => rfl
  | cons c rest => simp [hrest c rfl]

end Cutting

section Signs

variable {sign sign' cs cs' : List Char} {factor factor' : Int}

/-- Every text has a sign, which may be empty, and something behind it. -/
theorem exists_sign (text : List Char) :
    ∃ sign factor cs, text = sign ++ cs ∧ Sign sign factor ∧ Unsigned sign cs := by
  cases text with
  | nil => exact ⟨[], 1, [], rfl, .none, by simp [Unsigned]⟩
  | cons c cs =>
      by_cases hminus : c = '-'
      · exact ⟨['-'], -1, cs, by rw [hminus]; rfl, .minus, by simp [Unsigned]⟩
      by_cases hplus : c = '+'
      · exact ⟨['+'], 1, cs, by rw [hplus]; rfl, .plus, by simp [Unsigned]⟩
      · exact ⟨[], 1, c :: cs, rfl, .none, by simp [Unsigned, hminus, hplus]⟩

/-- The sign does not change the absolute value. -/
theorem Sign.natAbs_mul (h : Sign sign factor) (n : Nat) : (factor * n).natAbs = n := by
  cases h <;> simp

/-- What a text starts with decides which sign it has. -/
theorem Sign.unique (h : Sign sign factor) (h' : Sign sign' factor') (hcs : Unsigned sign cs)
    (hcs' : Unsigned sign' cs') (heq : sign ++ cs = sign' ++ cs') :
    factor = factor' ∧ cs = cs' := by
  cases h <;> cases h' <;> simp only [List.nil_append, List.cons_append, List.cons.injEq] at heq
  case none.none => exact ⟨rfl, heq⟩
  case none.plus => exact absurd rfl (hcs rfl '+' (by rw [heq]; rfl)).1
  case none.minus => exact absurd rfl (hcs rfl '-' (by rw [heq]; rfl)).2
  case plus.none => exact absurd rfl (hcs' rfl '+' (by rw [← heq]; rfl)).1
  case plus.plus => exact ⟨rfl, heq.2⟩
  case plus.minus => exact absurd heq.1 (by decide)
  case minus.none => exact absurd rfl (hcs' rfl '-' (by rw [← heq]; rfl)).2
  case minus.plus => exact absurd heq.1 (by decide)
  case minus.minus => exact ⟨rfl, heq.2⟩

end Signs

section Numbers

variable {text : List Char} {n m : Int}

/-- Every text has a leading number, which is zero without digits. -/
theorem exists_hasNumber (text : List Char) : ∃ n, HasNumber text n := by
  rcases exists_leading Text.isSpace text with ⟨blanks, behind, rfl, hblank, hnoBlank⟩
  rcases exists_sign behind with ⟨sign, factor, cs, rfl, hsigned, hnoSign⟩
  rcases exists_leading Char.isDigit cs with ⟨digits, rest, rfl, hdigit, hnoDigit⟩
  exact ⟨_, .intro rfl hblank hnoBlank hsigned hnoSign hdigit hnoDigit rfl⟩

/-- The leading number is the only one. -/
theorem HasNumber.unique (h : HasNumber text n) (h' : HasNumber text m) : n = m := by
  rcases h with ⟨hcut, hblank, hnoBlank, hsigned, hnoSign, hdigit, hnoDigit, rfl⟩
  rcases h' with ⟨hcut', hblank', hnoBlank', hsigned', hnoSign', hdigit', hnoDigit', rfl⟩
  -- The white space is cut off first, then the sign, and the digits come last.
  have hbehind := dropWhile_of_cut hblank hnoBlank
  rw [← hcut, hcut', dropWhile_of_cut hblank' hnoBlank'] at hbehind
  rcases hsigned'.unique hsigned hnoSign' hnoSign hbehind with ⟨rfl, hdigits⟩
  have hsame := takeWhile_of_cut hdigit hnoDigit
  rw [← hdigits, takeWhile_of_cut hdigit' hnoDigit'] at hsame
  rw [hsame]

end Numbers

/-! ## The status -/

section Status

variable {arg : String} {n m : Int}

/-- Reading digits from the left gives the decimal value. -/
theorem foldl_digits (digits : List Char) :
    digits.foldl (fun n c => n * 10 + (c.toNat - 48)) 0 = decimal digits := by
  induction digits using List.reverseRecOn with
  | nil => rfl
  | append_singleton digits c ih =>
      rw [List.foldl_append, ih, decimal, decimal, List.reverse_append, List.reverse_singleton,
        List.singleton_append, List.map_cons, Nat.ofDigits_cons, List.foldl_cons, List.foldl_nil]
      omega

/-- Digits are read exactly up to the largest number, and as zero beyond it. -/
theorem readDigits_eq (digits : List Char) :
    readDigits digits = if decimal digits ≤ maxRead then decimal digits else 0 := by
  rw [readDigits, foldl_digits]

/-- Larger numbers never give smaller statuses. -/
theorem clampStatus_mono (h : n ≤ m) : clampStatus n ≤ clampStatus m := by
  unfold clampStatus
  omega

/-- The status is read from the sign and the digits. -/
theorem exitStatus_of_sign {sign cs : List Char} {factor : Int} (hsigned : Sign sign factor)
    (hnoSign : Unsigned sign cs) (h : Text.trimStart arg.toList = sign ++ cs) :
    exitStatus arg = clampStatus (factor * readDigits (cs.takeWhile Char.isDigit)) := by
  rw [exitStatus, h]
  cases hsigned with
  | plus => simp
  | minus => simp
  | none =>
      have hcs := hnoSign rfl
      rw [List.nil_append, one_mul]
      split
      next => exact absurd rfl (hcs '-' rfl).2
      next => exact absurd rfl (hcs '+' rfl).1
      next => rfl

/-- A number of at most 63 bits is brought into the range of a status, and a longer one is read as
zero. -/
theorem HasNumber.exitStatus_eq (h : HasNumber arg.toList n) :
    exitStatus arg = if n.natAbs < 2 ^ 63 then clampStatus n else 0 := by
  rcases h with @⟨_, _, digits, _, _, hcut, hblank, hnoBlank, hsigned, hnoSign, hdigit, hnoDigit,
    rfl⟩
  have htrim := dropWhile_of_cut hblank hnoBlank
  rw [← hcut] at htrim
  rw [exitStatus_of_sign hsigned hnoSign htrim, takeWhile_of_cut hdigit hnoDigit, readDigits_eq,
    hsigned.natAbs_mul]
  have hsize : decimal digits ≤ maxRead ↔ decimal digits < 2 ^ 63 := by
    simp only [maxRead]
    omega
  simp only [hsize]
  split
  next => rfl
  next => rw [Nat.cast_zero, mul_zero]; rfl

/-- Zero is not the nearest status to a long number. -/
theorem clampStatus_ne_zero (h : ¬ n.natAbs < 2 ^ 63) : clampStatus n ≠ 0 := by
  unfold clampStatus minStatus maxStatus
  omega

end Status

/-- In every argument of `exit` there is one number, and its status is that number brought into
range if and only if the number has at most 63 bits. The status of a longer one is zero. So the
status grows with the number as long as both have at most 63 bits. -/
theorem exit_saturates_iff (arg : String) (rest : List String) (stdin : Option Bytes) (d : Desk) :
    ∃ n : Int, (∀ m, HasNumber arg.toList m ↔ m = n) ∧
      runOn (Builtin.exit (arg :: rest) stdin) d = (.ok (.exit (exitStatus arg)), d) ∧
      (exitStatus arg = max (-2147483648) (min n 2147483647) ↔ n.natAbs < 2 ^ 63) ∧
      (¬ n.natAbs < 2 ^ 63 → exitStatus arg = 0) ∧
      ∀ arg' n', HasNumber arg'.toList n' → n.natAbs < 2 ^ 63 → n'.natAbs < 2 ^ 63 → n ≤ n' →
        exitStatus arg ≤ exitStatus arg' := by
  rcases exists_hasNumber arg.toList with ⟨n, hn⟩
  refine ⟨n, ?_, rfl, ?_, ?_, ?_⟩
  · intro m
    exact ⟨fun hm => hm.unique hn, fun hm => hm ▸ hn⟩
  · rw [hn.exitStatus_eq]
    split
    next hsize => exact ⟨fun _ => hsize, fun _ => rfl⟩
    next hsize =>
        exact ⟨fun h => absurd h.symm (clampStatus_ne_zero hsize), fun h => absurd h hsize⟩
  · intro hsize
    rw [hn.exitStatus_eq, if_neg hsize]
  · intro arg' n' hn' hsize hsize' hle
    rw [hn.exitStatus_eq, hn'.exitStatus_eq, if_pos hsize, if_pos hsize']
    exact clampStatus_mono hle

/-- The number is read to its end, a sign and zeros in front of it do not matter, and what is behind
it does not either. -/
theorem padded_number_saturates :
    HasNumber "  -0004294967296x".toList (-4294967296) ∧
    exitStatus "  -0004294967296x" = -2147483648 ∧
      exitStatus "  -0004294967296x" ≤ exitStatus "+9" := by
  have hnumber : HasNumber "  -0004294967296x".toList (-4294967296) := by
    refine @HasNumber.intro _ _ [' ', ' '] ['-'] "0004294967296".toList ['x'] _ rfl
      (List.all_eq_true.1 rfl) ?_ .minus nofun (List.all_eq_true.1 rfl) ?_ (by decide)
    · rintro _ ⟨⟩
      rfl
    · rintro _ ⟨⟩
      rfl
  have hnine : HasNumber "+9".toList 9 := by
    refine @HasNumber.intro _ _ [] ['+'] ['9'] [] _ rfl nofun ?_ .plus nofun
      (List.all_eq_true.1 rfl) nofun (by decide)
    rintro _ ⟨⟩
    rfl
  rcases exit_saturates_iff "  -0004294967296x" [] none ⟨{}, .memory, .memory⟩
    with ⟨n, huniq, -, hiff, -, hmono⟩
  cases (huniq _).1 hnumber
  exact ⟨hnumber, hiff.2 (by decide), hmono "+9" 9 hnine (by decide) (by decide) (by decide)⟩

/-- The status of the first number that has 64 bits is zero, which is not even larger than that of
the number before it. -/
theorem long_number_exits_with_zero :
    HasNumber "9223372036854775808".toList 9223372036854775808 ∧
      exitStatus "9223372036854775808" = 0 ∧
      exitStatus "9223372036854775808" ≠ max (-2147483648) (min 9223372036854775808 2147483647) ∧
      exitStatus "9223372036854775807" = 2147483647 := by
  have hnumber : HasNumber "9223372036854775808".toList 9223372036854775808 := by
    refine @HasNumber.intro _ _ [] [] "9223372036854775808".toList [] _ rfl nofun ?_ .none ?_
      (List.all_eq_true.1 rfl) nofun (by decide)
    · rintro _ ⟨⟩
      rfl
    · rintro - _ ⟨⟩
      decide
  exact ⟨hnumber, by decide, by decide, by decide⟩

end LineShell
