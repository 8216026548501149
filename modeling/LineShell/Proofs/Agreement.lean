import Mathlib.Data.List.Induction
import LineShell.Proofs.Flags

/-!
# Agreement — two readers of flags

The commands for files share one reader of their words, which knows nothing of a command but its
flags. A listing reads its words by itself and sets what a flag asks for at once, so the flags
themselves are gone afterwards. This file gives the shared reader the flags of a listing and finds
no difference.

* `Listing.flags` — the flags of a listing;
* `Listing.Settings.asked` — the settings that flags ask for, one by one;
* `Listing.Noted` — reading a listing, with a note of each flag that is seen;
* `Listing.sharedRead` — reading a listing as the commands for files read their words;
* `Listing.option_readers_agree` — both readers sort out all words alike.
-/

namespace LineShell
namespace Listing

/-! ## Flags -/

def flags : List String :=
  ["-a", "-l", "-h", "-R", "-S", "-t", "-F", "--all"]

/-- The settings that flags ask for. The last one of those for an order decides, the others add
up. -/
def Settings.asked (seen : List String) : Settings where
  hidden := "-a" ∈ seen ∨ "--all" ∈ seen
  long := "-l" ∈ seen
  human := "-h" ∈ seen
  recursive := "-R" ∈ seen
  classify := "-F" ∈ seen
  key := ((seen.filterMap keyOf?).getLast?).getD .name

section Flags

variable {s s' : Settings} {flag : String} {c : Char}

/-- A letter with a meaning is one of the flags that are listed. -/
theorem mem_flags_of_letter? (h : s.letter? c = some s') : letterFlag c ∈ flags := by
  unfold Settings.letter? at h
  split at h
  case h_8 => cases h
  all_goals decide

/-- The flags that are known are the ones in the list. -/
theorem knows_eq_contains (flag : String) : knows flag = flags.contains flag := by
  rw [Bool.eq_iff_iff, List.contains_iff_mem]
  constructor
  · intro hknows
    rcases Option.isSome_iff_exists.1 hknows with ⟨s, hs⟩
    rcases flag?_eq_some hs with ⟨rfl, -⟩ | ⟨c, rfl, hletter⟩
    · decide
    · exact mem_flags_of_letter? hletter
  · have hall : ∀ flag ∈ flags, knows flag = true := by decide
    exact hall flag

/-- One more known flag has its effect on what was asked for before. -/
theorem asked_concat (seen : List String) (h : flag ∈ flags) :
    Settings.asked (seen ++ [flag]) = (Settings.asked seen).withFlag flag := by
  simp only [flags, List.mem_cons, List.not_mem_nil, or_false] at h
  rcases h with rfl | rfl | rfl | rfl | rfl | rfl | rfl | rfl <;>
    simp [Settings.asked, Settings.withFlag, Settings.flag?, Settings.letter?, keyOf?]

/-- Flags that are not known ask for nothing. -/
theorem settingsOf_filter_knows (given : List String) :
    settingsOf (given.filter knows) = settingsOf given := by
  rw [settingsOf, settingsOf, List.foldl_filter]
  congr 1
  funext s flag
  split
  next => rfl
  next hunknown =>
    have hnone : s.flag? flag = none := by
      rw [← isSome_flag? s] at hunknown
      simpa using hunknown
    simp [Settings.withFlag, hnone]

/-- Both ways to get settings from flags that were seen agree on known flags. -/
theorem settingsOf_eq_asked {seen : List String} (h : ∀ flag ∈ seen, flag ∈ flags) :
    settingsOf seen = Settings.asked seen := by
  induction seen using List.reverseRecOn with
  | nil => rfl
  | append_singleton seen flag ih =>
      have hseen : ∀ flag ∈ seen, flag ∈ flags :=
        fun flag hflag => h flag (List.mem_append_left _ hflag)
      rw [asked_concat seen (h flag (by simp)), ← ih hseen, settingsOf, settingsOf,
        List.foldl_append]
      rfl

end Flags

/-! ## Notes -/

/-- A request, and the known flags that were seen on the way to it, in order. -/
structure Noted where
  request : Request := {}
  seen : List String := []
  deriving DecidableEq, Repr

namespace Noted

/-- Adds a letter of a word of flags. -/
def addLetter (n : Noted) (c : Char) : Noted :=
  match n.request.settings.letter? c with
  | some settings => ⟨{ n.request with settings }, n.seen ++ [letterFlag c]⟩
  | none => { n with request.unknown := n.request.unknown ++ [letterFlag c] }

/-- Reads the words that follow a request, as `Request.read` does, and notes each flag when it is
set. -/
def read (n : Noted) : List String → Noted
  | [] => n
  | word :: rest =>
      match word.toList with
      | ['-', '-'] => { n with request.targets := n.request.targets ++ rest }
      | '-' :: '-' :: _ =>
          if word = "--all" then read ⟨{ n.request with settings.hidden := true },
            n.seen ++ [word]⟩ rest
          else read { n with request.unknown := n.request.unknown ++ [word] } rest
      | '-' :: c :: letters => read ((c :: letters).foldl addLetter n) rest
      | _ => read { n with request.targets := n.request.targets ++ [word] } rest

/-- Noting letters one by one asks for what the cluster as a whole asks for. -/
theorem request_foldl_addLetter (n : Noted) (letters : List Char) :
    (letters.foldl addLetter n).request = n.request.addLetters letters := by
  induction letters generalizing n with
  | nil => rfl
  | cons c rest ih =>
      rw [List.foldl_cons, ih, Request.addLetters, Request.addLetters, List.foldl_cons, addLetter]
      cases n.request.settings.letter? c with
      | none => rfl
      | some settings => rfl

/-- Of the letters of a cluster those with a meaning are noted, in order. -/
theorem seen_foldl_addLetter (n : Noted) (letters : List Char) :
    (letters.foldl addLetter n).seen = n.seen ++ (letters.map letterFlag).filter knows := by
  induction letters generalizing n with
  | nil => simp
  | cons c rest ih =>
      have hknows : knows (letterFlag c) = (n.request.settings.letter? c).isSome := by
        rw [← isSome_flag? n.request.settings, flag?_letterFlag]
      rw [List.foldl_cons, ih, addLetter]
      cases hletter : n.request.settings.letter? c with
      | none =>
          rw [hletter] at hknows
          simp [hknows]
      | some settings =>
          rw [hletter] at hknows
          simp [hknows]

/-- Notes do not change what is read. -/
theorem request_read (n : Noted) (args : List String) :
    (n.read args).request = n.request.read args := by
  -- The induction is on the reader that keeps the order of flags; the cases are those of the plain
  -- one.
  fun_induction n.read args with
  | case1 n => rfl
  | case2 n word rest hword => simp only [Request.read, hword]
  | case3 n rest _ _ hword ih =>
      rw [ih]
      simp [Request.read]
  | case4 n word rest _ hend hword hall ih =>
      rw [ih]
      simp only [Request.read, hword, if_neg hall]
  | case5 n word rest c letters hend hlong hword ih =>
      rw [ih, request_foldl_addLetter]
      simp only [Request.read, hword]
  | case6 n word rest hend hlong hletters ih =>
      rw [ih, Request.read]
      split
      next hword => exact absurd hword hend
      next hword => exact absurd hword (hlong _)
      next hword => exact absurd hword (hletters _ _)
      next => rfl

/-- The flags that are noted are the known ones before `--`, in order. -/
theorem seen_read (n : Noted) (args : List String) :
    (n.read args).seen = n.seen ++ (flagsIn args).filter knows := by
  fun_induction n.read args with
  | case1 n => simp
  | case2 n word rest hword =>
      obtain rfl : word = "--" := String.toList_inj.1 hword
      simp
  | case3 n rest _ _ hword ih =>
      rw [ih, flagsIn_cons (by decide), Options.flagsOf?_long hword]
      simp [knows, Settings.flag?]
  | case4 n word rest _ hend hword hall ih =>
      have hne : word ≠ "--" := by
        rintro rfl
        cases hword
        exact hend rfl
      -- A long flag that is not the one for hidden entries is unknown to both readers.
      have hunknown : knows word = false := by rw [knows, flag?_long hword hne hall]; rfl
      rw [ih, flagsIn_cons hne, Options.flagsOf?_long hword]
      simp [hunknown]
  | case5 n word rest c letters hend hlong hword ih =>
      have hne : word ≠ "--" := by
        rintro rfl
        cases hword
        exact hlong rfl
      rw [ih, seen_foldl_addLetter, flagsIn_cons hne, Options.flagsOf?_letters hword hlong,
        List.append_assoc, ← List.filter_append]
      rfl
  | case6 n word rest hend hlong hletters ih =>
      have hne : word ≠ "--" := by
        rintro rfl
        exact hend rfl
      rw [ih, flagsIn_cons hne, Options.flagsOf?_operand hletters]
      rfl

end Noted

/-! ## Both readers -/

/-- The words of a listing, sorted out by the reader that the commands for files share. -/
def sharedRead (args : List String) : Options :=
  Options.read flags.contains args

/-- The shared reader parts the flags by whether they are known, and keeps the order. -/
theorem sharedRead_eq (args : List String) :
    sharedRead args = ⟨(flagsIn args).filter knows, (flagsIn args).filter (!knows ·),
      operandsIn args⟩ := by
  have hknows : knows = flags.contains := funext knows_eq_contains
  rw [hknows]
  exact Options.read_eq flags.contains args

/-- A listing sorts out its words as the shared reader does that is given the flags of a listing: it
sees the same flags in the same order, and its request has the settings that these ask for, the same
unknown flags and the same operands. -/
theorem option_readers_agree (args : List String) :
    Noted.read {} args = ⟨Request.read {} args, (sharedRead args).flags⟩ ∧
      Request.read {} args =
        ⟨Settings.asked (sharedRead args).flags, (sharedRead args).unknown,
          (sharedRead args).operands⟩ := by
  constructor
  · have hseen : (Noted.read {} args).seen = (sharedRead args).flags := by
      rw [Noted.seen_read, sharedRead_eq, List.nil_append]
    have hrequest : (Noted.read {} args).request = Request.read {} args :=
      Noted.request_read {} args
    rw [← hseen, ← hrequest]
  · have hsettings : settingsOf (flagsIn args) = Settings.asked (sharedRead args).flags := by
      rw [sharedRead_eq, ← settingsOf_filter_knows]
      refine settingsOf_eq_asked fun flag hflag => ?_
      have hknown := (List.mem_filter.1 hflag).2
      rwa [knows_eq_contains, List.contains_iff_mem] at hknown
    rw [Request.read_eq, hsettings, sharedRead_eq]

/-- Flags of all kinds among operands. -/
example : Noted.read {} ["-St", "x", "-lé-", "-", "--all", "--alle", "-S", "--", "-R"] =
    ⟨⟨{ hidden := true, long := true, key := .size }, ["-é", "--", "--alle"], ["x", "-", "-R"]⟩,
      ["-S", "-t", "-l", "--all", "-S"]⟩ := by
  decide +kernel

end Listing
end LineShell
