import LineShell.Builtin.List

/-!
# Flags — which words of a command are flags

Every word before the first `--` is one flag, several flags of one letter each, or an operand, and
every word behind it is an operand. Commands differ in the flags that they know, and in what they do
with them.

* `flagsIn`, `operandsIn` — the flags and the operands among words;
* `Options.read_eq` — the words of a command that knows some flags;
* `Options.read_flagWords` — flags alone before `--`;
* `Listing.Request.read_eq` — the words of a listing;
* `Listing.hidden_settingsOf`, `Listing.key_settingsOf`, `Listing.recursive_settingsOf` — what its
  flags ask for.
-/

namespace LineShell

/-! ## Flags and operands -/

def letterFlag (c : Char) : String :=
  String.ofList ['-', c]

/-- The flags among the words before the first `--`, in order. -/
def flagsIn (args : List String) : List String :=
  (args.takeWhile (· ≠ "--")).flatMap fun word => (Options.flagsOf? word).getD []

/-- The operands among the words: those that hold no flag, and all behind the first `--`. -/
def operandsIn (args : List String) : List String :=
  (args.takeWhile (· ≠ "--")).filter (fun word => (Options.flagsOf? word).isNone) ++
    (args.dropWhile (· ≠ "--")).tail

/-- Words that hold flags only, all of them known. -/
def FlagWords (known : String → Bool) (words : List String) : Prop :=
  ∀ word ∈ words, word ≠ "--" ∧ ∃ flags, Options.flagsOf? word = some flags ∧
    ∀ flag ∈ flags, known flag = true

section Words

variable {known : String → Bool} {word : String} {args words rest : List String}

@[simp] theorem flagsIn_nil : flagsIn [] = [] := rfl

@[simp] theorem operandsIn_nil : operandsIn [] = [] := rfl

/-- Behind the end mark no word is a flag. -/
@[simp] theorem flagsIn_end (rest : List String) : flagsIn ("--" :: rest) = [] := rfl

/-- Behind the end mark every word is an operand. -/
@[simp] theorem operandsIn_end (rest : List String) : operandsIn ("--" :: rest) = rest := rfl

/-- Any other word adds the flags it has. -/
theorem flagsIn_cons (h : word ≠ "--") :
    flagsIn (word :: rest) = (Options.flagsOf? word).getD [] ++ flagsIn rest := by
  simp [flagsIn, h]

/-- Any other word that has no flags is an operand. -/
theorem operandsIn_cons (h : word ≠ "--") :
    operandsIn (word :: rest) = (if (Options.flagsOf? word).isNone then [word] else []) ++
      operandsIn rest := by
  simp [operandsIn, List.filter_cons, h]
  split <;> rfl

end Words

/-! ## Commands that know some flags -/

namespace Options

variable {known : String → Bool} {word : String} {words : List String} {c : Char}
  {chars : List Char}

/-- A long word is one flag. -/
theorem flagsOf?_long (h : word.toList = '-' :: '-' :: chars) : flagsOf? word = some [word] := by
  rw [flagsOf?, h]
  rfl

/-- A cluster has one flag for each of its letters. -/
theorem flagsOf?_letters (h : word.toList = '-' :: c :: chars) (hc : c ≠ '-') :
    flagsOf? word = some ((c :: chars).map letterFlag) := by
  rw [flagsOf?, h]
  split
  next hshort => simp at hshort
  next hlong => simp [hc] at hlong
  next hletters =>
    cases hletters
    rfl
  next hnone => exact absurd rfl (hnone _)

/-- Without a dash and something behind it, a word is an operand. -/
theorem flagsOf?_operand (h : ∀ c chars, word.toList ≠ '-' :: c :: chars) :
    flagsOf? word = none := by
  rw [flagsOf?]
  split
  next => rfl
  next hlong => exact absurd hlong (h _ _)
  next letters hshort _ hletters =>
    cases letters with
    | nil => exact absurd rfl hshort
    | cons c chars => exact absurd hletters (h c chars)
  next => rfl

/-- Reading options parts the flags by whether they are known and keeps the operands. -/
theorem read_eq (known : String → Bool) (args : List String) :
    read known args = ⟨(flagsIn args).filter known, (flagsIn args).filter (!known ·),
      operandsIn args⟩ := by
  induction args with
  | nil => rfl
  | cons word rest ih =>
      by_cases hend : word = "--"
      · subst hend
        rfl
      · rw [read, if_neg hend, ih, flagsIn_cons hend, operandsIn_cons hend]
        cases hflags : flagsOf? word with
        | none => rfl
        | some flags => simp

/-- Flags alone before `--` leave what is behind it as operands. -/
theorem read_flagWords (h : FlagWords known words) (operands : List String) :
    read known (words ++ "--" :: operands) = ⟨flagsIn words, [], operands⟩ := by
  induction words with
  | nil => rfl
  | cons word rest ih =>
      rcases h word List.mem_cons_self with ⟨hend, flags, hflags, hknown⟩
      have hrest := ih fun word hword => h word (List.mem_cons_of_mem _ hword)
      rw [List.cons_append, read, if_neg hend, hrest, hflags, flagsIn_cons hend, hflags]
      have hall : flags.filter known = flags := List.filter_eq_self.2 hknown
      have hnone : flags.filter (!known ·) = [] := by
        rw [List.filter_eq_nil_iff]
        intro flag hflag
        simp [hknown flag hflag]
      simp [hall, hnone]

end Options

/-! ## Listings -/

namespace Listing

/-- The settings after a flag, if it is known. -/
def Settings.flag? (s : Settings) (flag : String) : Option Settings :=
  if flag = "--all" then some { s with hidden := true }
  else
    match flag.toList with
    | ['-', c] => s.letter? c
    | _ => none

/-- The settings after a flag. One that is not known changes nothing. -/
def Settings.withFlag (s : Settings) (flag : String) : Settings :=
  (s.flag? flag).getD s

def knows (flag : String) : Bool :=
  (({} : Settings).flag? flag).isSome

def settingsOf (flags : List String) : Settings :=
  flags.foldl Settings.withFlag {}

/-- What a flag wants items to be ordered by. -/
def keyOf? (flag : String) : Option Key :=
  if flag = "-S" then some .size
  else if flag = "-t" then some .time
  else none

section Settings

variable {s : Settings} {c : Char} {flag : String} {flags : List String}

/-- Whether a letter has a meaning does not depend on the settings. -/
theorem isSome_letter? (s : Settings) (c : Char) :
    (s.letter? c).isSome = (({} : Settings).letter? c).isSome := by
  unfold Settings.letter?
  split <;> rfl

theorem isSome_flag? (s : Settings) (flag : String) : (s.flag? flag).isSome = knows flag := by
  unfold knows Settings.flag?
  split
  · rfl
  split
  · exact isSome_letter? _ _
  · rfl

/-- The flag of a letter means what the letter means. -/
theorem flag?_letterFlag (s : Settings) (c : Char) : s.flag? (letterFlag c) = s.letter? c := by
  have hne : letterFlag c ≠ "--all" := by
    intro heq
    have hlength := congrArg (fun word : String => word.toList.length) heq
    simp [letterFlag] at hlength
  rw [Settings.flag?, if_neg hne, letterFlag, String.toList_ofList]
  rfl

/-- No long flag but the one for hidden entries has a meaning. -/
theorem flag?_long {chars : List Char} (h : flag.toList = '-' :: '-' :: chars) (hend : flag ≠ "--")
    (hall : flag ≠ "--all") : s.flag? flag = none := by
  rw [Settings.flag?, if_neg hall]
  split
  next c hshort =>
    rw [h] at hshort
    cases hshort
    exact absurd (String.toList_inj.1 h) hend
  next => rfl

theorem flag?_eq_some {s' : Settings} (h : s.flag? flag = some s') :
    flag = "--all" ∧ s' = { s with hidden := true } ∨ ∃ c, flag = letterFlag c ∧
      s.letter? c = some s' := by
  unfold Settings.flag? at h
  split at h
  · cases h
    exact .inl ⟨‹_›, rfl⟩
  split at h
  next c hchars => exact .inr ⟨c, by rw [letterFlag, ← hchars, String.ofList_toList], h⟩
  next => cases h

/-- A flag shows hidden items, goes on with the directories below or orders items if it asks for
that. -/
theorem withFlag_spec (s : Settings) (flag : String) :
    (s.withFlag flag).hidden = (s.hidden || decide (flag = "-a" ∨ flag = "--all")) ∧
      (s.withFlag flag).recursive = (s.recursive || decide (flag = "-R")) ∧
      (s.withFlag flag).key = (keyOf? flag).getD s.key := by
  rw [Settings.withFlag]
  cases hflag : s.flag? flag with
  | none =>
      have hunknown : knows flag = false := by
        rw [← isSome_flag? s, hflag]
        rfl
      have hne : ∀ known, knows known = true → flag ≠ known := by
        rintro known hknown rfl
        rw [hunknown] at hknown
        cases hknown
      have ha := hne "-a" (by decide)
      have hall := hne "--all" (by decide)
      have hsize := hne "-S" (by decide)
      have htime := hne "-t" (by decide)
      have hbelow := hne "-R" (by decide)
      simp [keyOf?, ha, hall, hsize, htime, hbelow]
  | some s' =>
      rcases flag?_eq_some hflag with ⟨rfl, rfl⟩ | ⟨c, rfl, hletter⟩
      · simp [keyOf?]
      · unfold Settings.letter? at hletter
        split at hletter <;> cases hletter <;> simp [keyOf?, letterFlag]

/-- Each setting is on if it was, or if one of its flags is there. -/
theorem foldl_withFlag (flags : List String) (s : Settings) :
    (flags.foldl Settings.withFlag s).hidden =
    (s.hidden || decide ("-a" ∈ flags ∨ "--all" ∈ flags)) ∧
      (flags.foldl Settings.withFlag s).recursive = (s.recursive || decide ("-R" ∈ flags)) ∧
      (flags.foldl Settings.withFlag s).key = ((flags.filterMap keyOf?).getLast?).getD s.key := by
  induction flags generalizing s with
  | nil => simp
  | cons flag rest ih =>
      rcases ih (s.withFlag flag) with ⟨hhidden, hrecursive, hkey⟩
      rcases withFlag_spec s flag with ⟨hhidden', hrecursive', hkey'⟩
      rw [List.foldl_cons, hhidden, hrecursive, hkey, hhidden', hrecursive', hkey']
      refine ⟨?_, ?_, ?_⟩
      · rw [Bool.or_assoc, ← Bool.decide_or]
        congr 2
        grind
      · rw [Bool.or_assoc, ← Bool.decide_or]
        congr 2
        grind
      · cases hask : keyOf? flag with
        | none => simp [hask]
        | some key =>
            cases hrest : (rest.filterMap keyOf?).getLast? <;>
              simp [hask, List.getLast?_cons, hrest]

/-- Hidden items are shown if and only if one of the two flags for that is given. -/
theorem hidden_settingsOf (flags : List String) :
    (settingsOf flags).hidden = true ↔ "-a" ∈ flags ∨ "--all" ∈ flags := by
  rw [settingsOf, (foldl_withFlag flags {}).1]
  simp

/-- The last flag that asks for an order decides. -/
theorem key_settingsOf (flags : List String) :
    (settingsOf flags).key = ((flags.filterMap keyOf?).getLast?).getD .name :=
  (foldl_withFlag flags {}).2.2

/-- The directories below are shown if and only if the flag for that is given. -/
theorem recursive_settingsOf (flags : List String) :
    (settingsOf flags).recursive = true ↔ "-R" ∈ flags := by
  rw [settingsOf, (foldl_withFlag flags {}).2.1]
  simp

end Settings

namespace Request

/-- A cluster is added flag by flag. -/
theorem addLetters_eq (r : Request) (letters : List Char) :
    r.addLetters letters =
      ⟨(letters.map letterFlag).foldl Settings.withFlag r.settings,
        r.unknown ++ (letters.map letterFlag).filter (!knows ·), r.targets⟩ := by
  induction letters generalizing r with
  | nil => simp [addLetters]
  | cons c rest ih =>
      have hknows : knows (letterFlag c) = (r.settings.letter? c).isSome := by
        rw [← isSome_flag? r.settings, flag?_letterFlag]
      have hwith : r.settings.withFlag (letterFlag c) = (r.settings.letter? c).getD r.settings := by
        rw [Settings.withFlag, flag?_letterFlag]
      rw [addLetters, List.foldl_cons, ← addLetters]
      cases hletter : r.settings.letter? c with
      | none =>
          rw [hletter] at hknows hwith
          change addLetters { r with unknown := r.unknown ++ [letterFlag c] } rest = _
          rw [ih]
          simp [hknows, hwith]
      | some settings =>
          rw [hletter] at hknows hwith
          rw [ih]
          simp [hknows, hwith]

/-- Arguments are read on from what a request has already. -/
theorem readOn_eq (r : Request) (args : List String) :
    r.read args = ⟨(flagsIn args).foldl Settings.withFlag r.settings,
      r.unknown ++ (flagsIn args).filter (!knows ·), r.targets ++ operandsIn args⟩ := by
  induction args generalizing r with
  | nil => simp [read]
  | cons word rest ih =>
      by_cases hend : word = "--"
      · subst hend
        simp [read]
      · rw [flagsIn_cons hend, operandsIn_cons hend, read]
        split
        -- The four shapes of a word: `--`, a long flag, letters behind a dash, and an operand.
        next hchars => exact absurd (String.toList_inj.1 hchars) hend
        next tail _ hchars =>
          rw [Options.flagsOf?_long hchars]
          split
          next hall =>
            subst hall
            rw [ih]
            simp [knows, Settings.flag?, Settings.withFlag]
          next hall =>
            have hunknown : ∀ s : Settings, s.flag? word = none :=
              fun s => flag?_long hchars hend hall
            rw [ih]
            simp [knows, Settings.withFlag, hunknown]
        next c letters _ hletter hchars =>
          rw [Options.flagsOf?_letters hchars hletter, addLetters_eq, ih]
          simp only [Option.getD_some, Option.isNone_some, Bool.false_eq_true, if_false,
            List.nil_append, List.foldl_append, List.filter_append, List.append_assoc]
        next hend _ hshort =>
          have hoperand : ∀ c letters, word.toList ≠ '-' :: c :: letters := hshort
          rw [Options.flagsOf?_operand hoperand, ih]
          simp

/-- The words of a listing, sorted out. -/
theorem read_eq (args : List String) :
    read {} args = ⟨settingsOf (flagsIn args), (flagsIn args).filter (!knows ·),
      operandsIn args⟩ := by
  rw [readOn_eq, List.nil_append, List.nil_append]
  rfl

end Request

end Listing

end LineShell
