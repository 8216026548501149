import Mathlib.Algebra.Order.Field.Basic
import Mathlib.Data.Rat.Cast.Order
import Mathlib.Tactic.FieldSimp
import Mathlib.Tactic.Linarith
import Mathlib.Tactic.Positivity
import LineShell.Listing
import LineShell.Proofs.Numerals

/-!
# Sizes — how near a size for people to read is

A size is divided by its unit, the largest one that is not above it, and the quotient is rounded to
whole numbers, or to tenths below ten. Rounding comes last, so it can bring the number up to 1024 of
a unit: the unit is not chosen again. It never brings two sizes out of order.

* `IsDecimal` — decimal numbers, with what their last digit counts;
* `Text.roundDiv_near`, `Text.roundDiv_mono`, `Text.roundDiv_lt_iff` — quotients that are rounded;
* `Text.sizeUnit_spec` — the unit of a size;
* `Text.ShowsSize`, `Text.showsSize_humanSize` — the number and the unit in a text, and in that of a
  size;
* `Text.NearsNext`, `Text.shownNumber_lt_iff` — sizes that are brought up to the next unit;
* `Text.shown_mono` — sizes in order;
* `Listing.sizes_stay_in_unit_iff` — all of it for the lines of a listing.
-/

namespace LineShell

/-! ## Decimal numbers -/

/-- Decimal values of digits in turn. -/
theorem decimal_append (as bs : List Char) :
    decimal (as ++ bs) = decimal as * 10 ^ bs.length + decimal bs := by
  simp [decimal, Nat.ofDigits_append]
  ring

/-- The digits of a number have its value. -/
theorem decimal_toDigits (n : Nat) : decimal (Nat.toDigits 10 n) = n := by
  have hfold := @Nat.ofDigitChars_toDigits 10 n (by decide) (by decide)
  rw [Nat.ofDigitChars_eq_foldl] at hfold
  rw [← foldl_digits]
  simpa [Nat.mul_comm] using hfold

/-- The characters are digits, and there are some. -/
def Digits (cs : List Char) : Prop :=
  cs ≠ [] ∧ ∀ c ∈ cs, c.isDigit = true

theorem digits_toDigits (n : Nat) : Digits (Nat.toDigits 10 n) :=
  ⟨Nat.toDigits_ne_nil, fun _ hc => Nat.isDigit_of_mem_toDigits (by decide) (by decide) hc⟩

/-- The text is a decimal number of the given value; its last digit counts `last`. -/
inductive IsDecimal : List Char → ℚ → ℚ → Prop
  | whole {digits : List Char} (h : Digits digits) : IsDecimal digits (decimal digits) 1
  | point {digits places : List Char} (h : Digits digits) (hplaces : Digits places) :
      IsDecimal (digits ++ '.' :: places) (decimal (digits ++ places) / 10 ^ places.length)
        (1 / 10 ^ places.length)

theorem Digits.not_point {digits : List Char} (h : Digits digits) : '.' ∉ digits := by
  intro hmem
  exact absurd (h.2 '.' hmem) (by decide)

/-- A text is a decimal number of one value only. -/
theorem IsDecimal.unique {text : List Char} {value value' last last' : ℚ}
    (h : IsDecimal text value last) (h' : IsDecimal text value' last') :
    value = value' ∧ last = last' := by
  -- A point is no digit, so a text with a point has no reading without one.
  generalize htext : text = other at h'
  cases h with
  | whole hdigits =>
      cases h' with
      | whole => exact ⟨by rw [htext], rfl⟩
      | point =>
          refine absurd ?_ hdigits.not_point
          rw [htext]
          exact List.mem_append_right _ List.mem_cons_self
  | point hdigits hplaces =>
      cases h' with
      | whole hdigits' =>
          refine absurd ?_ hdigits'.not_point
          rw [← htext]
          exact List.mem_append_right _ List.mem_cons_self
      | point hdigits' hplaces' =>
          rcases (List.append_cons_inj_of_notMem hdigits.not_point hplaces.not_point).1 htext
            with ⟨rfl, -, rfl⟩
          exact ⟨rfl, rfl⟩

namespace Text

/-! ## Rounding -/

section Rounding

variable {a a' b c : Nat}

/-- A quotient is rounded down or up by its remainder, and if that is a half, to the even side. -/
theorem roundDiv_cases (a b : Nat) :
    roundDiv a b = a / b ∧ (2 * (a % b) < b ∨ 2 * (a % b) = b ∧ a / b % 2 = 0) ∨
      roundDiv a b = a / b + 1 ∧ (b < 2 * (a % b) ∨ 2 * (a % b) = b ∧ a / b % 2 = 1) := by
  unfold roundDiv
  simp only
  split_ifs <;> omega

/-- A rounded quotient is off by at most one half. -/
theorem roundDiv_near (a : Nat) (hb : 0 < b) :
    2 * (b * roundDiv a b) ≤ 2 * a + b ∧ 2 * a ≤ 2 * (b * roundDiv a b) + b := by
  have hparts := Nat.div_add_mod a b
  have hrest := Nat.mod_lt a hb
  rcases roundDiv_cases a b with ⟨heq, hhalf⟩ | ⟨heq, hhalf⟩
  · rw [heq]
    omega
  · rw [heq, Nat.mul_succ]
    omega

/-- Rounding keeps the order. -/
theorem roundDiv_mono (h : a ≤ a') : roundDiv a b ≤ roundDiv a' b := by
  have hparts := Nat.div_add_mod a b
  have hparts' := Nat.div_add_mod a' b
  have hcases := roundDiv_cases a b
  have hcases' := roundDiv_cases a' b
  rcases Nat.eq_or_lt_of_le (Nat.div_le_div_right h : a / b ≤ a' / b) with heq | hlt
  · -- Of the same quotient the smaller remainder is rounded up only if the larger one is.
    rw [heq] at hparts hcases
    omega
  · omega

theorem roundDiv_mul (c : Nat) (hb : 0 < b) : roundDiv (b * c) b = c := by
  rcases roundDiv_cases (b * c) b with ⟨heq, -⟩ | ⟨heq, hhalf⟩
  · rw [heq, Nat.mul_div_cancel_left c hb]
  · rw [Nat.mul_mod_right] at hhalf
    omega

/-- Rounding does not go above a whole number. -/
theorem roundDiv_le (hb : 0 < b) (h : a ≤ b * c) : roundDiv a b ≤ c :=
  (roundDiv_mono h).trans (roundDiv_mul c hb).le

/-- Rounding does not go below a whole number. -/
theorem le_roundDiv (hb : 0 < b) (h : b * c ≤ a) : c ≤ roundDiv a b :=
  (roundDiv_mul c hb).ge.trans (roundDiv_mono h)

/-- An odd number of halves below `c` is rounded up to `c` if `c` is even. -/
theorem roundDiv_lt_iff (hb : 0 < b) (hc : c % 2 = 0) (h : a < b * c) :
    roundDiv a b < c ↔ 2 * a + b < 2 * (b * c) := by
  have hparts := Nat.div_add_mod a b
  have hquotient : a / b < c := Nat.div_lt_of_lt_mul h
  have hround := roundDiv_cases a b
  rcases Nat.eq_or_lt_of_le (Nat.succ_le_of_lt hquotient) with hlast | hbelow
  · -- The quotient is the odd number before `c`.
    have hwhole : b * c = b * (a / b) + b := by rw [← hlast, Nat.mul_succ]
    omega
  · have hnext : b * (a / b + 2) ≤ b * c := Nat.mul_le_mul_left b hbelow
    have hrest := Nat.mod_lt a hb
    rw [Nat.mul_add] at hnext
    omega

end Rounding

/-! ## Units -/

section Units

variable {n most unit : Nat}

/-- Small numbers keep all their digits. -/
theorem keepDigits_eq (h : n < 2 ^ sizeDigits) : keepDigits n = n := by
  have hlog : n.log2 + 1 - sizeDigits = 0 := by
    by_cases hn : n = 0
    · subst hn
      decide
    · have hlog := (Nat.log2_lt hn).2 h
      omega
  rw [keepDigits, hlog]
  change roundDiv n 1 * 1 = n
  have hwhole := @roundDiv_mul 1 n (by decide)
  rwa [Nat.one_mul, ← Nat.mul_one (roundDiv n 1)] at hwhole

/-- The unit of a size is the largest one that is not above it. -/
theorem sizeUnit_spec (h : n < 1024 ^ (most + 1)) :
    sizeUnit n most ≤ most ∧ (sizeUnit n most = 0 ∨ 1024 ^ sizeUnit n most ≤ n) ∧
      n < 1024 ^ (sizeUnit n most + 1) := by
  induction most with
  | zero => exact ⟨le_rfl, .inl rfl, h⟩
  | succ most ih =>
      rw [sizeUnit]
      split
      next hunit => exact ⟨le_rfl, .inr hunit, h⟩
      next hunit =>
        rcases ih (Nat.lt_of_not_le hunit) with ⟨hmost, hlow, hhigh⟩
        exact ⟨hmost.trans (Nat.le_succ most), hlow, hhigh⟩

end Units

/-! ## Texts of sizes -/

/-- The text is a decimal number in front of the name of a unit. -/
def ShowsSize (text : String) (number last : ℚ) (unit : Nat) : Prop :=
  ∃ digits name, sizeUnits[unit]? = some name ∧ text = String.ofList digits ++ name ∧
    IsDecimal digits number last

/-- The unit in which a size is shown. -/
def shownUnit (n : Nat) : Nat :=
  sizeUnit n (sizeUnits.length - 1)

def shownPlaces (n : Nat) : Nat :=
  if shownUnit n ≠ 0 ∧ n < 10 * 1024 ^ shownUnit n then 1 else 0

def shownDigits (n : Nat) : Nat :=
  roundDiv (10 ^ shownPlaces n * n) (1024 ^ shownUnit n)

def shownNumber (n : Nat) : ℚ :=
  shownDigits n / 10 ^ shownPlaces n

/-- A text shows one number in one unit only. -/
theorem ShowsSize.unique {text : String} {number number' last last' : ℚ} {unit unit' : Nat}
    (h : ShowsSize text number last unit) (h' : ShowsSize text number' last' unit') :
    number = number' ∧ last = last' ∧ unit = unit' := by
  rcases h with ⟨digits, name, hname, rfl, hdecimal⟩
  rcases h' with ⟨digits', name', hname', htext, hdecimal'⟩
  -- The name of a unit is one character, so it is the last one of the text.
  have hlength : ∀ name ∈ sizeUnits, name.toList.length = 1 := by decide
  have hone := hlength name (List.mem_of_getElem? hname)
  have hone' := hlength name' (List.mem_of_getElem? hname')
  have hchars := congrArg String.toList htext
  simp only [String.toList_append, String.toList_ofList] at hchars
  rcases List.append_inj' hchars (hone.trans hone'.symm) with ⟨rfl, hnames⟩
  rw [String.toList_inj.1 hnames, ← hname'] at hname
  have hunit := (List.getElem?_inj (List.getElem?_eq_some_iff.1 hname').1 (by decide)).1 hname.symm
  rcases hdecimal.unique hdecimal' with ⟨hnumber, hlast⟩
  exact ⟨hnumber, hlast, hunit.symm⟩

section Shown

variable {m n : Nat}

/-- The unit is the largest one that is not above the number. -/
theorem shownUnit_spec (h : n < 2 ^ 53) :
    shownUnit n < sizeUnits.length ∧ (shownUnit n = 0 ∨ 1024 ^ shownUnit n ≤ n) ∧
      n < 1024 ^ (shownUnit n + 1) := by
  have hlarge : n < 1024 ^ (6 + 1) := h.trans (by decide)
  rcases sizeUnit_spec hlarge with ⟨hmost, hlow, hhigh⟩
  exact ⟨Nat.lt_succ_of_le hmost, hlow, hhigh⟩

/-- Small numbers of a unit are shown with one place. -/
theorem humanSize_of_point (h : n < 2 ^ 53) (hunit : shownUnit n ≠ 0)
    (hsmall : n < 10 * 1024 ^ shownUnit n) :
    humanSize n = (roundDiv (10 * n) (1024 ^ shownUnit n) / 10).repr ++ "." ++
      (roundDiv (10 * n) (1024 ^ shownUnit n) % 10).repr ++ sizeUnits.getD (shownUnit n) "" := by
  have hkeep := keepDigits_eq h
  unfold humanSize
  simp only [hkeep]
  exact (if_neg hunit).trans (if_neg (Nat.not_le_of_lt hsmall))

/-- All other numbers are shown without places. -/
theorem humanSize_of_whole (h : n < 2 ^ 53)
    (hlarge : shownUnit n ≠ 0 → 10 * 1024 ^ shownUnit n ≤ n) :
    humanSize n = (roundDiv n (1024 ^ shownUnit n)).repr ++ sizeUnits.getD (shownUnit n) "" := by
  have hkeep := keepDigits_eq h
  unfold humanSize
  simp only [hkeep]
  by_cases hunit : shownUnit n = 0
  · have hsame : roundDiv n (1024 ^ shownUnit n) = n := by
      have hwhole := @roundDiv_mul 1 n Nat.one_pos
      rwa [Nat.one_mul, ← Nat.pow_zero 1024, ← hunit] at hwhole
    rw [hsame]
    exact if_pos hunit
  · exact (if_neg hunit).trans (if_pos (hlarge hunit))

/-- Digits with no place or with one behind the point. -/
def withPlaces (places digits : Nat) : List Char :=
  if places = 0 then Nat.toDigits 10 digits
  else Nat.toDigits 10 (digits / 10) ++ '.' :: Nat.toDigits 10 (digits % 10)

/-- Digits with a point are the decimal they look like. -/
theorem isDecimal_withPlaces {places : Nat} (h : places ≤ 1) (digits : Nat) :
    IsDecimal (withPlaces places digits) (digits / 10 ^ places) (1 / 10 ^ places) := by
  rcases Nat.le_one_iff_eq_zero_or_eq_one.1 h with rfl | rfl
  · have hwhole := IsDecimal.whole (digits_toDigits digits)
    rw [decimal_toDigits] at hwhole
    simpa [withPlaces] using hwhole
  · have hplace : (Nat.toDigits 10 (digits % 10)).length = 1 := by
      rw [Nat.toDigits_of_lt_base (Nat.mod_lt _ (by decide))]
      rfl
    have hpoint := IsDecimal.point (digits_toDigits (digits / 10)) (digits_toDigits (digits % 10))
    rw [decimal_append, decimal_toDigits, decimal_toDigits, hplace, Nat.pow_one, Nat.div_add_mod']
      at hpoint
    exact hpoint

/-- A size is shown in its unit, with its number of places. -/
theorem showsSize_humanSize (h : n < 2 ^ 53) :
    ShowsSize (humanSize n) (shownNumber n) (1 / 10 ^ shownPlaces n) (shownUnit n) := by
  have hname : sizeUnits[shownUnit n]? = some (sizeUnits.getD (shownUnit n) "") := by
    rw [List.getD_eq_getElem?_getD, List.getElem?_eq_getElem (shownUnit_spec h).1]
    rfl
  by_cases hpoint : shownUnit n ≠ 0 ∧ n < 10 * 1024 ^ shownUnit n
  · have hplaces : shownPlaces n = 1 := if_pos hpoint
    refine ⟨withPlaces (shownPlaces n) (shownDigits n), _, hname, ?_,
      isDecimal_withPlaces hplaces.le _⟩
    apply String.toList_inj.1
    simp [humanSize_of_point h hpoint.1 hpoint.2, withPlaces, shownDigits, hplaces]
  · have hplaces : shownPlaces n = 0 := if_neg hpoint
    have hlarge : shownUnit n ≠ 0 → 10 * 1024 ^ shownUnit n ≤ n := fun hunit =>
      Nat.le_of_not_lt fun hsmall => hpoint ⟨hunit, hsmall⟩
    refine ⟨withPlaces (shownPlaces n) (shownDigits n), _, hname, ?_,
      isDecimal_withPlaces (by omega) _⟩
    apply String.toList_inj.1
    simp [humanSize_of_whole h hlarge, withPlaces, shownDigits, hplaces]

/-! ### What the number is near to -/

/-- The number shown is off by at most half of its last place. -/
theorem shownNumber_near (n : Nat) :
    |shownNumber n - n / 1024 ^ shownUnit n| ≤ 1 / 10 ^ shownPlaces n / 2 := by
  have hnear := @roundDiv_near (1024 ^ shownUnit n) (10 ^ shownPlaces n * n) (by positivity)
  rw [← shownDigits] at hnear
  rcases hnear with ⟨hup, hdown⟩
  have hunit : (0 : ℚ) < 1024 ^ shownUnit n := by positivity
  have hplaces : (0 : ℚ) < 10 ^ shownPlaces n := by positivity
  have hup : (2 * (1024 ^ shownUnit n * shownDigits n) : ℚ) ≤ 2 * (10 ^ shownPlaces n * n) +
    1024 ^ shownUnit n := by
    exact_mod_cast hup
  have hdown : (2 * (10 ^ shownPlaces n * n) : ℚ) ≤ 2 * (1024 ^ shownUnit n * shownDigits n) +
    1024 ^ shownUnit n := by
    exact_mod_cast hdown
  -- With a common denominator both sides are about the numerators, where the error of rounding is
  -- known.
  have hdiff : shownNumber n - n / 1024 ^ shownUnit n =
      (1024 ^ shownUnit n * shownDigits n - 10 ^ shownPlaces n * n) /
        (10 ^ shownPlaces n * 1024 ^ shownUnit n) := by
    rw [shownNumber]
    field_simp
  have hhalf : 1 / 10 ^ shownPlaces n / 2 =
      (1024 ^ shownUnit n / 2 : ℚ) / (10 ^ shownPlaces n * 1024 ^ shownUnit n) := by
    field_simp
  rw [hdiff, hhalf, abs_div, abs_of_pos (mul_pos hplaces hunit)]
  apply div_le_div_of_nonneg_right _ (mul_pos hplaces hunit).le
  rw [abs_le]
  constructor <;> linarith

/-- A whole number of units that is not below a size is not below the number that is shown. -/
theorem shownNumber_le {c : Nat} (h : n ≤ 1024 ^ shownUnit n * c) : shownNumber n ≤ c := by
  have hdigits : shownDigits n ≤ 10 ^ shownPlaces n * c := by
    refine roundDiv_le (by positivity) ?_
    calc 10 ^ shownPlaces n * n ≤ 10 ^ shownPlaces n * (1024 ^ shownUnit n * c) :=
      Nat.mul_le_mul_left _ h
      _ = 1024 ^ shownUnit n * (10 ^ shownPlaces n * c) := Nat.mul_left_comm _ _ _
  rw [shownNumber, div_le_iff₀ (by positivity), mul_comm]
  exact_mod_cast hdigits

/-- The number shown does not go below a whole number. -/
theorem le_shownNumber {c : Nat} (h : 1024 ^ shownUnit n * c ≤ n) : c ≤ shownNumber n := by
  have hdigits : 10 ^ shownPlaces n * c ≤ shownDigits n := by
    refine le_roundDiv (by positivity) ?_
    calc 1024 ^ shownUnit n * (10 ^ shownPlaces n * c) =
      10 ^ shownPlaces n * (1024 ^ shownUnit n * c) :=
          Nat.mul_left_comm _ _ _
      _ ≤ 10 ^ shownPlaces n * n := Nat.mul_le_mul_left _ h
  rw [shownNumber, le_div_iff₀ (by positivity), mul_comm]
  exact_mod_cast hdigits

/-! ### Where the unit gives out -/

/-- The size is at most half a unit below 1024 units, and the unit is not the byte. -/
def NearsNext (n : Nat) : Prop :=
  ∃ unit, 0 < unit ∧ 2047 * 1024 ^ unit ≤ 2 * n ∧ n < 1024 ^ (unit + 1)

/-- No unit above the number is shown. -/
theorem shownUnit_le {unit : Nat} (h : n < 2 ^ 53) (hhigh : n < 1024 ^ (unit + 1)) :
    shownUnit n ≤ unit := by
  rcases (shownUnit_spec h).2.1 with hzero | hlow
  · omega
  · exact Nat.le_of_lt_succ ((Nat.pow_lt_pow_iff_right (by decide)).1 (hlow.trans_lt hhigh))

/-- No smaller unit than needed is shown. -/
theorem le_shownUnit {unit : Nat} (h : n < 2 ^ 53) (hlow : 1024 ^ unit ≤ n) : unit ≤ shownUnit n :=
  Nat.le_of_lt_succ ((Nat.pow_lt_pow_iff_right (by decide)).1
    (hlow.trans_lt (shownUnit_spec h).2.2))

/-- A number nears the next unit from half a unit below it on. -/
theorem nearsNext_iff (h : n < 2 ^ 53) :
    NearsNext n ↔ shownUnit n ≠ 0 ∧ 2047 * 1024 ^ shownUnit n ≤ 2 * n := by
  constructor
  · rintro ⟨unit, hunit, hnear, hhigh⟩
    have hle := shownUnit_le h hhigh
    have hge := le_shownUnit h (show 1024 ^ unit ≤ n by omega)
    obtain rfl : unit = shownUnit n := Nat.le_antisymm hge hle
    exact ⟨hunit.ne', hnear⟩
  · rintro ⟨hunit, hnear⟩
    exact ⟨shownUnit n, Nat.pos_of_ne_zero hunit, hnear, (shownUnit_spec h).2.2⟩

/-- The number shown stays below the next unit unless it nears it. -/
theorem shownNumber_lt_iff (h : n < 2 ^ 53) : shownNumber n < 1024 ↔ ¬ NearsNext n := by
  rw [nearsNext_iff h]
  by_cases hunit : shownUnit n = 0
  · -- Bytes are shown as they are.
    have hbytes : n < 1024 := by
      have hhigh := (shownUnit_spec h).2.2
      rwa [hunit] at hhigh
    have hnumber : shownNumber n ≤ n := shownNumber_le (by rw [hunit, pow_zero, Nat.one_mul])
    have hsmall : (n : ℚ) < 1024 := by exact_mod_cast hbytes
    simp [hunit, hnumber.trans_lt hsmall]
  by_cases hpoint : n < 10 * 1024 ^ shownUnit n
  · -- One place is only kept below ten units, which is far from the next unit.
    have hnumber : shownNumber n ≤ (10 : Nat) := shownNumber_le (by omega)
    have hsmall : shownNumber n < 1024 := by
      refine hnumber.trans_lt ?_
      norm_num
    have hfar : ¬ 2047 * 1024 ^ shownUnit n ≤ 2 * n := by omega
    simp [hsmall, hfar]
  · -- A number without places, which is rounded up from half a unit below 1024, since that is even.
    have hplaces : shownPlaces n = 0 := if_neg fun hboth => hpoint hboth.2
    have hnumber : shownNumber n = roundDiv n (1024 ^ shownUnit n) := by
      rw [shownNumber, shownDigits, hplaces, pow_zero, pow_zero, Nat.one_mul, div_one]
    have hhigh : n < 1024 ^ shownUnit n * 1024 := (shownUnit_spec h).2.2
    have hround := roundDiv_lt_iff (show 0 < 1024 ^ shownUnit n by positivity)
      (show 1024 % 2 = 0 by decide) hhigh
    rw [hnumber]
    have hcast : (roundDiv n (1024 ^ shownUnit n) : ℚ) < 1024 ↔
        roundDiv n (1024 ^ shownUnit n) < 1024 := by
      exact_mod_cast Iff.rfl
    rw [hcast, hround]
    simp only [hunit, ne_eq, not_false_eq_true, true_and, not_le]
    omega

/-- Of a size that nears the next unit the number is 1024. -/
theorem shownNumber_of_nearsNext (h : n < 2 ^ 53) (hnear : NearsNext n) : shownNumber n = 1024 := by
  have hup : shownNumber n ≤ (1024 : Nat) := shownNumber_le (shownUnit_spec h).2.2.le
  have hdown : ¬ shownNumber n < 1024 := fun hlt => (shownNumber_lt_iff h).1 hlt hnear
  exact le_antisymm (by exact_mod_cast hup) (not_lt.1 hdown)

/-! ### Sizes in order -/

/-- Of two sizes in the same unit the smaller one is not shown as the larger number. -/
theorem shownNumber_mono (h : m ≤ n) (hunit : shownUnit m = shownUnit n) :
    shownNumber m ≤ shownNumber n := by
  by_cases hplaces : shownPlaces m = shownPlaces n
  · have hdigits : shownDigits m ≤ shownDigits n := by
      rw [shownDigits, shownDigits, hunit, hplaces]
      exact roundDiv_mono (Nat.mul_le_mul_left _ h)
    rw [shownNumber, shownNumber, hplaces]
    exact div_le_div_of_nonneg_right (by exact_mod_cast hdigits) (by positivity)
  · -- Ten units lie between a size with a place and one without.
    have hten : m < 10 * 1024 ^ shownUnit m ∧ 10 * 1024 ^ shownUnit n ≤ n := by
      unfold shownPlaces at hplaces
      rw [hunit] at hplaces ⊢
      grind
    have hdown : shownNumber m ≤ (10 : Nat) := shownNumber_le (by omega)
    have hup : (10 : Nat) ≤ shownNumber n := le_shownNumber (by omega)
    exact hdown.trans hup

/-- What is shown of two sizes is in their order. -/
theorem shown_mono (h : m ≤ n) (hn : n < 2 ^ 53) :
    shownNumber m * 1024 ^ shownUnit m ≤ shownNumber n * 1024 ^ shownUnit n := by
  have hm : m < 2 ^ 53 := h.trans_lt hn
  have hunits : shownUnit m ≤ shownUnit n := shownUnit_le hm (h.trans_lt (shownUnit_spec hn).2.2)
  rcases Nat.eq_or_lt_of_le hunits with hunit | hunit
  · rw [hunit]
    exact mul_le_mul_of_nonneg_right (shownNumber_mono h hunit) (by positivity)
  · -- The next unit lies between two sizes in different units.
    have hdown : shownNumber m ≤ (1024 : Nat) := shownNumber_le (shownUnit_spec hm).2.2.le
    have hup : (1 : Nat) ≤ shownNumber n := by
      refine le_shownNumber ?_
      rw [Nat.mul_one]
      exact (shownUnit_spec hn).2.1.resolve_left (by omega)
    calc shownNumber m * 1024 ^ shownUnit m ≤ (1024 : Nat) * 1024 ^ shownUnit m :=
          mul_le_mul_of_nonneg_right hdown (by positivity)
      _ = 1024 ^ (shownUnit m + 1) := by
          push_cast
          ring
      _ ≤ 1024 ^ shownUnit n := pow_le_pow_right₀ (by norm_num) hunit
      _ ≤ shownNumber n * 1024 ^ shownUnit n :=
        le_mul_of_one_le_left (by positivity) (by exact_mod_cast hup)

end Shown

end Text

/-! ## Lines -/

namespace Listing

open Text

/-- A line with all that is known of an item has the text of its size behind blanks. -/
theorem line_long {s : Settings} (hlong : s.long = true) (hhuman : s.human = true) (colors : Bool)
    (width : Nat) (item : Item) :
    ∃ blanks, line s colors width item =
      modeText item ++ " " ++ String.ofList (List.replicate blanks ' ') ++ humanSize item.size ++
        " " ++
        timeText item ++ " " ++ nameText s colors item ++ "\n" := by
  refine ⟨width - (humanSize item.size).length, ?_⟩
  simp only [line, hlong, if_true, sizeText, hhuman, padLeft]
  simp [toString, String.append_assoc]

/-- In a listing with sizes for people to read, the text of a size of less than 53 bits is a decimal
number in front of the name of a unit, and it can be read in one way only. The unit is the largest
one that is not above the size, the number is within half of its last digit of the exact quotient,
and a smaller size does not have a larger text. The number is below 1024 except for sizes that near
the next unit, which are shown as 1024. -/
theorem sizes_stay_in_unit_iff (n : Nat) (hn : n < 2 ^ 53) :
    (∃ number last unit, ShowsSize (humanSize n) number last unit ∧
      (unit = 0 ∨ 1024 ^ unit ≤ n) ∧ n < 1024 ^ (unit + 1) ∧
      |number - n / 1024 ^ unit| ≤ last / 2 ∧
      (number < 1024 ↔ ¬ NearsNext n) ∧ (NearsNext n → number = 1024)) ∧
    (∀ number number' last last' unit unit', ShowsSize (humanSize n) number last unit →
      ShowsSize (humanSize n) number' last' unit' → number = number' ∧ last = last' ∧
        unit = unit') ∧
    (∀ m, m ≤ n → ∀ number number' last last' unit unit', ShowsSize (humanSize m) number last unit →
      ShowsSize (humanSize n) number' last' unit' → number * 1024 ^ unit ≤ number' * 1024 ^ unit') ∧
    ∀ (s : Settings) colors width item, s.long = true → s.human = true → item.size = n →
      ∃ blanks, line s colors width item =
        modeText item ++ " " ++ String.ofList (List.replicate blanks ' ') ++ humanSize n ++ " " ++
          timeText item ++ " " ++ nameText s colors item ++ "\n" := by
  refine ⟨?_, fun _ _ _ _ _ _ h h' => h.unique h', ?_, ?_⟩
  · exact ⟨shownNumber n, _, shownUnit n, showsSize_humanSize hn, (shownUnit_spec hn).2.1,
      (shownUnit_spec hn).2.2, shownNumber_near n, shownNumber_lt_iff hn,
      shownNumber_of_nearsNext hn⟩
  · intro m hmn number number' last last' unit unit' h h'
    rcases h.unique (showsSize_humanSize (hmn.trans_lt hn)) with ⟨rfl, -, rfl⟩
    rcases h'.unique (showsSize_humanSize hn) with ⟨rfl, -, rfl⟩
    exact shown_mono hmn hn
  · rintro s colors width item hlong hhuman rfl
    exact line_long hlong hhuman colors width item

/-- Just below ten units the number is ten with a place. A byte less is not shown as more. -/
theorem ten_units_with_a_place :
    10239 < 2 ^ 53 ∧ ShowsSize (humanSize 10239) 10 (1 / 10) 1 ∧
      |(10 : ℚ) - (10239 : Nat) / 1024 ^ 1| ≤ 1 / 10 / 2 ∧ ((10 : ℚ) < 1024 ↔ ¬ NearsNext 10239) ∧
      (∀ number last unit, ShowsSize (humanSize 10238) number last unit →
        number * 1024 ^ unit ≤ 10 * 1024 ^ 1) ∧
      ∃ blanks, line { long := true, human := true } false 5 ⟨"f",
        some ⟨.file ⟨10239, []⟩, 0o644, 0⟩, 0⟩ =
        "-rw-r--r--" ++ " " ++ String.ofList (List.replicate blanks ' ') ++ humanSize 10239 ++
          " " ++
          "1970-01-01 00:00" ++ " " ++ "f" ++ "\n" := by
  have hpoint : ShowsSize (humanSize 10239) 10 (1 / 10) 1 := by
    have htext : humanSize 10239 = String.ofList (withPlaces 1 100) ++ "K" := by decide +kernel
    have hdecimal := isDecimal_withPlaces (le_refl 1) 100
    norm_num at hdecimal
    exact ⟨withPlaces 1 100, "K", rfl, htext, by simpa using hdecimal⟩
  rcases sizes_stay_in_unit_iff 10239 (by decide) with ⟨hshown, hunique, hmono, hline⟩
  rcases hshown with ⟨number, last, unit, hshows, -, -, hnear, hbelow, -⟩
  rcases hunique _ _ _ _ _ _ hshows hpoint with ⟨rfl, rfl, rfl⟩
  refine ⟨by decide, hpoint, hnear, hbelow, ?_, ?_⟩
  · exact fun number last unit h => hmono 10238 (by decide) _ _ _ _ _ _ h hpoint
  · have hmode : modeText ⟨"f", some ⟨.file ⟨10239, []⟩, 0o644, 0⟩, 0⟩ = "-rw-r--r--" := by
      decide +kernel
    have htime : timeText ⟨"f", some ⟨.file ⟨10239, []⟩, 0o644, 0⟩, 0⟩ = "1970-01-01 00:00" := by
      decide +kernel
    have hname : nameText { long := true, human := true } false ⟨"f",
      some ⟨.file ⟨10239, []⟩, 0o644, 0⟩, 0⟩ = "f" := by
      decide +kernel
    rw [← hmode, ← htime, ← hname]
    exact hline _ false 5 _ rfl rfl rfl

/-- Just below the next unit the number is 1024. -/
theorem size_below_next_unit_is_1024 :
    1048575 < 2 ^ 53 ∧ humanSize 1048575 = "1024K" ∧
      ¬ ∃ number last unit, ShowsSize (humanSize 1048575) number last unit ∧ number < 1024 := by
  refine ⟨by decide, by decide +kernel, ?_⟩
  rintro ⟨number, last, unit, hshows, hlt⟩
  have hnear : NearsNext 1048575 := ⟨1, by decide, by decide, by decide⟩
  have hnumber : number = 1024 :=
    (hshows.unique (showsSize_humanSize (by decide))).1.trans
      (shownNumber_of_nearsNext (by decide) hnear)
  rw [hnumber] at hlt
  exact lt_irrefl _ hlt

end Listing
end LineShell
