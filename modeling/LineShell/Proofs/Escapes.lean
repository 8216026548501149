import Mathlib.Data.List.Induction
import LineShell.Builtin.Echo

/-!
# Escapes — what `echo -e` prints

Escaped text is a sequence of items, and each of them stands for bytes, whatever is written behind
it. So a text stands for the bytes of its items, one after the other, up to the first `\c`, and any
bytes can be spelled by their numbers.

* `Item` — the items, with their spelling `Item.written` and their bytes `Item.bytes`;
* `decode_written_append` — an item in front of any text;
* `decode_text`, `decode_text_stop` — a sequence of items, at the end of a text and in front of
  `\c`;
* `Spelling`, `bytes_item` — a byte spelled by its number;
* `settings_append` — flag words, and the words that are printed;
* `decodeAll_of_not_stops`, `decodeAll_cut` — arguments without a `\c`, and the first one with it;
* `escapes_are_decoded` — all of it, for whole commands.
-/

namespace LineShell
namespace Echo

/-! ## Items -/

/-- The control characters that an escape names by a letter. -/
inductive Control where
  | alarm
  | backspace
  | tab
  | lineFeed
  | verticalTab
  | formFeed
  | carriageReturn
  deriving DecidableEq, Repr

namespace Control

def letter : Control → Char
  | alarm => 'a'
  | backspace => 'b'
  | tab => 't'
  | lineFeed => 'n'
  | verticalTab => 'v'
  | formFeed => 'f'
  | carriageReturn => 'r'

def byte : Control → UInt8
  | alarm => 7
  | backspace => 8
  | tab => 9
  | lineFeed => 10
  | verticalTab => 11
  | formFeed => 12
  | carriageReturn => 13

end Control

/-- A hexadecimal digit; letters may be capital. -/
structure HexDigit where
  value : Fin 16
  capital : Bool := false
  deriving DecidableEq, Repr

def HexDigit.char (d : HexDigit) : Char :=
  if d.capital then (Nat.digitChar d.value).toUpper else Nat.digitChar d.value

/-- The characters that start an escape behind a backslash. -/
def escapeLetters : List Char :=
  ['n', 't', 'r', '\\', 'a', 'b', 'f', 'v', '0', 'x', 'c']

/-- A piece of escaped text. -/
inductive Item where
  | plain (c : Char) (h : c ≠ '\\')
  | backslash
  | control (k : Control)
  | octal (a b c : Fin 8)
  | hex (a b : HexDigit)
  /-- A backslash in front of a character that starts no escape. -/
  | kept (c : Char) (h : c ∉ escapeLetters)

namespace Item

/-- An item as it stands in a text. -/
def written : Item → List Char
  | plain c _ => [c]
  | backslash => ['\\', '\\']
  | control k => ['\\', k.letter]
  | octal a b c => ['\\', '0', Nat.digitChar a, Nat.digitChar b, Nat.digitChar c]
  | hex a b => ['\\', 'x', a.char, b.char]
  | kept c _ => ['\\', c]

/-- The bytes that an item stands for. A number stands for one byte, its value modulo 256. -/
def bytes : Item → Bytes
  | plain c _ => String.utf8EncodeChar c
  | backslash => [92]
  | control k => [k.byte]
  | octal a b c => [UInt8.ofNat ((64 * a + 8 * b + c) % 256)]
  | hex a b => [UInt8.ofNat (16 * a.value + b.value)]
  | kept c _ => 92 :: String.utf8EncodeChar c

def text (items : List Item) : List Char :=
  items.flatMap written

def meaning (items : List Item) : Bytes :=
  items.flatMap bytes

end Item

/-! ## Decoding items -/

/-- Octal digits are read as their values. -/
theorem digit?_octal : ∀ d : Fin 8, digit? 8 (Nat.digitChar d) = some d.val := by
  decide

/-- Hexadecimal digits of either case are read as their values. -/
theorem digit?_hex (d : HexDigit) : digit? 16 d.char = some d.value.val := by
  rcases d with ⟨value, capital⟩
  revert value capital
  decide

section Heads

variable (rest : List Char)

/-- Anything but a backslash stands for itself. -/
theorem decode_plain {c : Char} (h : c ≠ '\\') :
    decode (c :: rest) = (String.utf8EncodeChar c ++ (decode rest).1, (decode rest).2) := by
  rw [decode]
  all_goals intros; simp_all

theorem decode_backslash :
    decode ('\\' :: '\\' :: rest) = (92 :: (decode rest).1, (decode rest).2) := by
  rw [decode] <;> simp [named?]

/-- A control escape stands for its byte. -/
theorem decode_control (k : Control) :
    decode ('\\' :: k.letter :: rest) = (k.byte :: (decode rest).1, (decode rest).2) := by
  cases k <;> rw [Control.letter, decode] <;> simp [named?, Control.byte]

/-- Three octal digits stand for a byte, modulo 256. -/
theorem decode_octal (a b c : Fin 8) :
    decode ('\\' :: '0' :: Nat.digitChar a :: Nat.digitChar b :: Nat.digitChar c :: rest) =
      (UInt8.ofNat ((64 * a + 8 * b + c) % 256) :: (decode rest).1, (decode rest).2) := by
  have hdigits : digits 8 3 (Nat.digitChar a :: Nat.digitChar b :: Nat.digitChar c :: rest) =
      [a.val, b.val, c.val] := by
    simp only [digits, digit?_octal]
  -- Three octal digits go up to 511, and a byte wraps around.
  have hbyte : byteOf 8 [a.val, b.val, c.val] = UInt8.ofNat ((64 * a + 8 * b + c) % 256) := by
    rw [byteOf, UInt8.ofNat_mod_size]
    congr 1
    simp only [List.foldl_cons, List.foldl_nil]
    omega
  rw [decode, hdigits, hbyte]
  rfl

/-- Two hexadecimal digits stand for a byte. -/
theorem decode_hex (a b : HexDigit) :
    decode ('\\' :: 'x' :: a.char :: b.char :: rest) =
      (UInt8.ofNat (16 * a.value + b.value) :: (decode rest).1, (decode rest).2) := by
  have hdigits : digits 16 2 (a.char :: b.char :: rest) = [a.value.val, b.value.val] := by
    simp only [digits, digit?_hex]
  have hbyte : byteOf 16 [a.value.val, b.value.val] = UInt8.ofNat (16 * a.value + b.value) := by
    rw [byteOf]
    congr 1
    simp only [List.foldl_cons, List.foldl_nil]
    omega
  rw [decode, hdigits, hbyte]
  rfl

/-- A backslash before any other letter stays. -/
theorem decode_kept {c : Char} (h : c ∉ escapeLetters) :
    decode ('\\' :: c :: rest) = (92 :: String.utf8EncodeChar c ++ (decode rest).1,
      (decode rest).2) := by
  have hnamed : named? c = none := by
    unfold named?
    split <;> simp_all [escapeLetters]
  simp only [escapeLetters, List.mem_cons, not_or] at h
  rw [decode, hnamed] <;> simp_all

/-- An item stands for its bytes, whatever stands behind it. -/
theorem decode_written_append (i : Item) :
    decode (i.written ++ rest) = (i.bytes ++ (decode rest).1, (decode rest).2) := by
  cases i with
  | plain c h => exact decode_plain rest h
  | backslash => exact decode_backslash rest
  | control k => exact decode_control rest k
  | octal a b c => exact decode_octal rest a b c
  | hex a b => exact decode_hex rest a b
  | kept c h => exact decode_kept rest h

/-- Items are decoded one by one, whatever follows. -/
theorem decode_text_append (items : List Item) :
    decode (Item.text items ++ rest) =
      (Item.meaning items ++ (decode rest).1, (decode rest).2) := by
  induction items with
  | nil => rfl
  | cons i items ih =>
      have htext : Item.text (i :: items) ++ rest = i.written ++ (Item.text items ++ rest) :=
        List.append_assoc ..
      have hmeaning : Item.meaning (i :: items) = i.bytes ++ Item.meaning items := rfl
      rw [htext, decode_written_append, ih, hmeaning, List.append_assoc]

end Heads

section Texts

variable (items : List Item)

/-- Items alone never stop the output. -/
theorem decode_text : decode (Item.text items) = (Item.meaning items, false) := by
  have hend : decode [] = ([], false) := by rw [decode]
  have happend := decode_text_append [] items
  rw [List.append_nil, hend, List.append_nil] at happend
  exact happend

/-- Behind the items, a stop sign cuts off the rest. -/
theorem decode_text_stop (rest : List Char) :
    decode (Item.text items ++ '\\' :: 'c' :: rest) = (Item.meaning items, true) := by
  have hstop : decode ('\\' :: 'c' :: rest) = ([], true) := by rw [decode]
  rw [decode_text_append, hstop, List.append_nil]

end Texts

/-! ## Bytes as numbers -/

/-- How a byte is spelled by its number. -/
inductive Spelling where
  | octal
  /-- Which of the two digits are capital letters, if they are letters. -/
  | hex (first second : Bool)
  deriving DecidableEq, Repr

/-- The item that spells a byte. -/
def Spelling.item (b : UInt8) : Spelling → Item
  | octal => .octal (.ofNat 8 (b.toNat / 64)) (.ofNat 8 (b.toNat / 8)) (.ofNat 8 b.toNat)
  | hex first second => .hex ⟨.ofNat 16 (b.toNat / 16), first⟩ ⟨.ofNat 16 b.toNat, second⟩

/-- Each spelling of a byte stands for that byte. -/
theorem bytes_item (b : UInt8) (s : Spelling) : (s.item b).bytes = [b] := by
  have hb : b.toNat < 256 := b.toNat_lt
  cases s with
  | octal =>
      have hvalue : (64 * (b.toNat / 64 % 8) + 8 * (b.toNat / 8 % 8) + b.toNat % 8) % 256 =
        b.toNat := by omega
      simp only [Spelling.item, Item.bytes, Fin.val_ofNat, hvalue, UInt8.ofNat_toNat]
  | hex first second =>
      have hvalue : 16 * (b.toNat / 16 % 16) + b.toNat % 16 = b.toNat := by omega
      simp only [Spelling.item, Item.bytes, Fin.val_ofNat, hvalue, UInt8.ofNat_toNat]

/-- The items that spell bytes, each in its own way. -/
def spelled (bytes : List (UInt8 × Spelling)) : List Item :=
  bytes.map fun b => b.2.item b.1

/-- A spelled text means its bytes. -/
theorem meaning_spelled (bytes : List (UInt8 × Spelling)) :
    Item.meaning (spelled bytes) = bytes.map Prod.fst := by
  induction bytes with
  | nil => rfl
  | cons b bytes ih =>
      have hcons : Item.meaning (spelled (b :: bytes)) =
        (b.2.item b.1).bytes ++ Item.meaning (spelled bytes) := rfl
      rw [hcons, bytes_item, ih]
      rfl

/-! ## Flags -/

def IsFlagWord (word : String) : Prop :=
  ∃ letters, word.toList = '-' :: letters ∧ letters ≠ [] ∧ ∀ c ∈ letters, c ∈ ['n', 'e', 'E']

def lettersOf (flags : List String) : List Char :=
  flags.flatMap fun word => word.toList.drop 1

/-- A flag word is a dash and at least one letter, all of them known. -/
theorem flagLetters?_eq_some_iff {word : String} {letters : List Char} :
    flagLetters? word = some letters ↔
      word.toList = '-' :: letters ∧ letters ≠ [] ∧ ∀ c ∈ letters, c ∈ ['n', 'e', 'E'] := by
  unfold flagLetters?
  split
  · next c cs h =>
    rw [h]
    split
    · next hall =>
      simp only [List.all_eq_true, List.contains_iff_mem] at hall
      constructor
      · intro hsome
        cases hsome
        exact ⟨rfl, by simp, hall⟩
      · rintro ⟨hcs, -⟩
        rw [(List.cons.inj hcs).2]
    · next hall =>
      simp only [List.all_eq_true, List.contains_iff_mem] at hall
      constructor
      · intro hsome
        cases hsome
      · rintro ⟨hcs, -, hletters⟩
        rw [← (List.cons.inj hcs).2] at hletters
        exact (hall hletters).elim
  · -- Without a letter behind a dash there is nothing to read as flags.
    next hshape =>
    constructor
    · intro hsome
      cases hsome
    · rintro ⟨hword, hne, -⟩
      cases letters with
      | nil => exact (hne rfl).elim
      | cons c cs => exact (hshape c cs hword).elim

instance (word : String) : Decidable (IsFlagWord word) :=
  decidable_of_iff ((flagLetters? word).isSome = true) <| by
    simp only [Option.isSome_iff_exists, flagLetters?_eq_some_iff, IsFlagWord]

/-- Flags end at the first word that is none. -/
theorem settings_of_head {words : List String} (h : ∀ word ∈ words.head?, ¬ IsFlagWord word)
    (s : Settings) :
    settings s words = (s, words) := by
  cases words with
  | nil => rfl
  | cons word words =>
      have hnone : flagLetters? word = none := by
        cases hsome : flagLetters? word with
        | none => rfl
        | some letters => exact (h word rfl ⟨letters, flagLetters?_eq_some_iff.1 hsome⟩).elim
      rw [settings, hnone]

/-- The flag words in front are settings, and all that stands behind them is printed. -/
theorem settings_append {flags words : List String} (hflags : ∀ word ∈ flags, IsFlagWord word)
    (hwords : ∀ word ∈ words.head?, ¬ IsFlagWord word) (s : Settings) :
    settings s (flags ++ words) = ((lettersOf flags).foldl Settings.apply s, words) := by
  induction flags generalizing s with
  | nil => exact settings_of_head hwords s
  | cons flag flags ih =>
      obtain ⟨hflag, hflags⟩ := List.forall_mem_cons.1 hflags
      obtain ⟨letters, hletters⟩ := hflag
      have hcons : lettersOf (flag :: flags) = letters ++ lettersOf flags := by
        rw [lettersOf, List.flatMap_cons, hletters.1]
        rfl
      rw [List.cons_append, settings, flagLetters?_eq_some_iff.2 hletters, hcons, List.foldl_append]
      exact ih hflags _

/-- The newline is left out if any letter asks for it. -/
theorem newline_foldl_apply (letters : List Char) (s : Settings) :
    (letters.foldl Settings.apply s).newline = (s.newline && !letters.contains 'n') := by
  induction letters generalizing s with
  | nil => simp
  | cons c letters ih =>
      have hstep : (s.apply c).newline = (s.newline && !(c == 'n')) := by
        unfold Settings.apply
        split <;> simp_all
      rw [List.foldl_cons, ih, hstep, List.contains_cons, Bool.not_or, Bool.and_assoc, BEq.comm]

/-- The last letter that is about escapes decides. -/
theorem escapes_foldl_apply {letters : List Char} {c : Char}
    (h : (letters.filter (· != 'n')).getLast? = some c) (s : Settings) :
    (letters.foldl Settings.apply s).escapes = (c == 'e') := by
  -- From the right: the last letter decides, and `n` leaves it to those before.
  induction letters using List.reverseRecOn with
  | nil => simp at h
  | append_singleton letters d ih =>
      rw [List.foldl_append, List.foldl_cons, List.foldl_nil]
      by_cases hn : d = 'n'
      · have hsame : (letters ++ [d]).filter (· != 'n') = letters.filter (· != 'n') := by
          simp [List.filter_append, hn]
        rw [hsame] at h
        rw [hn]
        exact ih h
      · have hlast : (letters ++ [d]).filter (· != 'n') = letters.filter (· != 'n') ++ [d] := by
          simp [List.filter_append, hn]
        rw [hlast, List.getLast?_concat] at h
        cases h
        unfold Settings.apply
        split
        · exact (hn rfl).elim
        · rfl
        · next he => simpa using he

/-! ## Arguments -/

/-- The bytes that an argument stands for, up to its `\c`. -/
def shown (word : String) : Bytes :=
  (decode word.toList).1

/-- The argument has a `\c`. -/
def stops (word : String) : Bool :=
  (decode word.toList).2

/-- Without a backslash nothing stops the output. -/
theorem decode_snd_of_not_mem {cs : List Char} (h : '\\' ∉ cs) : (decode cs).2 = false := by
  induction cs with
  | nil => rw [decode]
  | cons c cs ih =>
      rw [List.mem_cons, not_or] at h
      rw [decode_plain cs (Ne.symm h.1)]
      exact ih h.2

/-- Flag words have no backslashes. -/
theorem not_isFlagWord_of_stops {word : String} (h : stops word = true) : ¬ IsFlagWord word := by
  rintro ⟨letters, hword, -, hletters⟩
  have hplain : '\\' ∉ '-' :: letters := by
    intro hmem
    rcases List.mem_cons.1 hmem with hdash | hmem
    · cases hdash
    · exact absurd (hletters _ hmem) (by decide)
  rw [stops, hword, decode_snd_of_not_mem hplain] at h
  cases h

section Arguments

variable {word : String} (words : List String)

/-- A word that stops the output is the last one shown. -/
theorem decodeAll_of_stops (h : stops word = true) :
    decodeAll (word :: words) = (shown word, true) := by
  have hword : decode word.toList = (shown word, true) := Prod.ext rfl h
  cases words with
  | nil => exact hword
  | cons next words =>
      rw [decodeAll]
      · simp only [hword, if_true]
      · simp

/-- Words that do not stop are shown with a blank between them. -/
theorem decodeAll_cons (h : stops word = false) (next : String) :
    decodeAll (word :: next :: words) =
      (shown word ++ 32 :: (decodeAll (next :: words)).1, (decodeAll (next :: words)).2) := by
  have hword : decode word.toList = (shown word, false) := Prod.ext rfl h
  rw [decodeAll]
  · simp [hword]
  · simp

end Arguments

section Rows

variable {front : List String} (h : ∀ word ∈ front, stops word = false)
include h

/-- Arguments are decoded one by one, with a blank between each two. -/
theorem decodeAll_of_not_stops : decodeAll front = ([32].intercalate (front.map shown), false) := by
  induction front with
  | nil => rfl
  | cons word front ih =>
      obtain ⟨hword, hfront⟩ := List.forall_mem_cons.1 h
      cases front with
      | nil =>
          rw [decodeAll, List.map_singleton, List.intercalate_singleton]
          exact Prod.ext rfl hword
      | cons next front =>
          have hrest := ih hfront
          simp only [List.map_cons] at hrest ⊢
          rw [decodeAll_cons _ hword, hrest, List.intercalate_cons_cons]
          simp

/-- Nothing behind the first `\c` is decoded. -/
theorem decodeAll_cut {word : String} (hword : stops word = true) (after : List String) :
    decodeAll (front ++ word :: after) =
      ([32].intercalate ((front ++ [word]).map shown), true) := by
  induction front with
  | nil =>
      rw [List.nil_append, decodeAll_of_stops _ hword, List.nil_append, List.map_singleton,
        List.intercalate_singleton]
  | cons first front ih =>
      obtain ⟨hfirst, hfront⟩ := List.forall_mem_cons.1 h
      -- Another argument follows, so a blank does.
      obtain ⟨head, tail, htail⟩ : ∃ head tail, front ++ word :: after = head :: tail := by
        cases front <;> simp
      obtain ⟨head', tail', htail'⟩ : ∃ head' tail', (front ++ [word]).map shown =
        head' :: tail' := by
        cases front <;> simp
      have hrest := ih hfront
      rw [htail, htail'] at hrest
      rw [List.cons_append, htail, decodeAll_cons _ hfirst, hrest, List.cons_append, List.map_cons,
        htail', List.intercalate_cons_cons]
      simp

end Rows

namespace Item

def word (items : List Item) : String :=
  String.ofList (text items)

/-- The argument that goes on with `\c` and any text. -/
def cutWord (items : List Item) (rest : List Char) : String :=
  String.ofList (text items ++ '\\' :: 'c' :: rest)

variable (items : List Item) (rest : List Char)

theorem shown_word : shown (word items) = meaning items := by
  rw [shown, word, String.toList_ofList, decode_text]

theorem stops_word : stops (word items) = false := by
  rw [stops, word, String.toList_ofList, decode_text]

theorem shown_cutWord : shown (cutWord items rest) = meaning items := by
  rw [shown, cutWord, String.toList_ofList, decode_text_stop]

theorem stops_cutWord : stops (cutWord items rest) = true := by
  rw [stops, cutWord, String.toList_ofList, decode_text_stop]

end Item

/-! ## Commands -/

/-- If the last of the letters that matter asks for escapes, what follows the flags is decoded. -/
theorem output_of_flags {flags words : List String} (hflags : ∀ word ∈ flags, IsFlagWord word)
    (hescapes : ((lettersOf flags).filter (· != 'n')).getLast? = some 'e')
    (hwords : ∀ word ∈ words.head?, ¬ IsFlagWord word) :
    output (flags ++ words) =
      if !(lettersOf flags).contains 'n' && !(decodeAll words).2 then (decodeAll words).1 ++ [10]
      else (decodeAll words).1 := by
  simp only [output, settings_append hflags hwords, escapes_foldl_apply hescapes,
    newline_foldl_apply]
  simp

/-- Prints bytes, and ends with success. -/
def printing (bytes : Bytes) : Action Completion := do
  Action.print bytes
  return .success

/-- All that echo does is print its output. -/
theorem echo_of_output {args : List String} {bytes : Bytes} (h : output args = bytes)
    (stdin : Option Bytes) :
    Builtin.echo args stdin = printing bytes := by
  rw [← h]
  rfl

/-- A spelled word is never taken for a flag. -/
theorem not_isFlagWord_spelled (bytes : List (UInt8 × Spelling)) :
    ¬ IsFlagWord (Item.word (spelled bytes)) := by
  rintro ⟨letters, hword, -⟩
  -- The text is empty or begins with a backslash.
  rw [Item.word, String.toList_ofList] at hword
  rcases bytes with _ | ⟨⟨b, octal | ⟨first, second⟩⟩, bytes⟩
  · cases hword
  · cases hword
  · cases hword

/-- A sequence of items is decoded to the bytes of its items, and text behind `\c` is not looked at.
So any bytes can be printed by their numbers. Of several arguments with escapes, all is printed that
stands in front of the first `\c` and nothing behind it, not even the end of the line; without a
`\c` the line is ended, unless a flag forbids it. -/
theorem escapes_are_decoded :
    (∀ items : List Item, decode (Item.text items) = (Item.meaning items, false) ∧
      ∀ rest, decode (Item.text items ++ '\\' :: 'c' :: rest) = (Item.meaning items, true)) ∧
    (∀ (bytes : List (UInt8 × Spelling)) (stdin : Option Bytes),
      Builtin.echo ["-ne", Item.word (spelled bytes)] stdin = printing (bytes.map Prod.fst)) ∧
    ∀ (flags front : List String) (stdin : Option Bytes), (∀ word ∈ flags, IsFlagWord word) →
      ((lettersOf flags).filter (· != 'n')).getLast? = some 'e' →
      (∀ word ∈ front.head?, ¬ IsFlagWord word) → (∀ word ∈ front, stops word = false) →
      (∀ word after, stops word = true →
        Builtin.echo (flags ++ (front ++ word :: after)) stdin =
          printing ([32].intercalate ((front ++ [word]).map shown))) ∧
      Builtin.echo (flags ++ front) stdin =
        printing ([32].intercalate (front.map shown) ++ if 'n' ∈ lettersOf flags then []
          else [10]) := by
  refine ⟨fun items => ⟨decode_text items, decode_text_stop items⟩, fun bytes stdin => ?_, ?_⟩
  · -- The flags are given, and a spelled text is no flag word, so it is decoded.
    have hflags : ∀ word ∈ ["-ne"], IsFlagWord word := by decide
    have hhead : ∀ word ∈ [Item.word (spelled bytes)].head?, ¬ IsFlagWord word := by
      intro word hword
      cases hword
      exact not_isFlagWord_spelled bytes
    have hdecoded : decodeAll [Item.word (spelled bytes)] = (bytes.map Prod.fst, false) := by
      rw [decodeAll, Item.word, String.toList_ofList, decode_text, meaning_spelled]
    have hline : (lettersOf ["-ne"]).contains 'n' = true := by decide
    refine echo_of_output ?_ stdin
    rw [← List.singleton_append, output_of_flags hflags (by decide) hhead, hdecoded, hline]
    rfl
  · intro flags front stdin hflags hescapes hhead hfront
    refine ⟨fun word after hword => echo_of_output ?_ stdin, echo_of_output ?_ stdin⟩
    · -- The word that is cut may be the first one, and it is no flag word either.
      have hbegin : ∀ first ∈ (front ++ word :: after).head?, ¬ IsFlagWord first := by
        cases front with
        | nil =>
            intro first hfirst
            cases hfirst
            exact not_isFlagWord_of_stops hword
        | cons first front => exact hhead
      rw [output_of_flags hflags hescapes hbegin, decodeAll_cut hfront hword]
      simp
    · rw [output_of_flags hflags hescapes hhead, decodeAll_of_not_stops hfront]
      by_cases hn : 'n' ∈ lettersOf flags
      · simp [hn]
      · simp [hn]

/-- `-e` behind `-En` counts; the octal number is above a byte, the raw byte stands beside a letter
of two bytes, and `\8` is no escape. Without a flag that forbids the end of the line, `\c` drops it
too. -/
theorem cut_argument_ends_output :
    Builtin.echo ["-En", "-e", "é\\xE9\\t", "\\0777\\8\\\\c\\c \\n", "more"] none =
        printing [0xC3, 0xA9, 0xE9, 9, 32, 0xFF, 92, 0x38, 92, 0x63] ∧
      Builtin.echo ["-e", "\\x41\\c"] none = printing [0x41] ∧
      Builtin.echo ["-e", "\\x41"] none = printing [0x41, 10] := by
  have hcommands := escapes_are_decoded.2.2
  have hflag : ∀ word ∈ ["-e"], IsFlagWord word := by decide
  have hfirst := (hcommands ["-En", "-e"]
    [Item.word [.plain 'é' (by decide), .hex ⟨14, true⟩ ⟨9, false⟩, .control .tab]] none (by decide)
      (by decide)
    (by decide) (by simp [Item.stops_word])).1
    (Item.cutWord [.octal 7 7 7, .kept '8' (by decide), .backslash, .plain 'c' (by decide)] [' ',
      '\\', 'n']) ["more"]
    (Item.stops_cutWord _ _)
  have hcut := (hcommands ["-e"] [] none hflag (by decide) (by decide) (by simp)).1
    (Item.cutWord [.hex ⟨4, false⟩ ⟨1, false⟩] []) [] (Item.stops_cutWord _ _)
  have hwhole := (hcommands ["-e"] [Item.word [.hex ⟨4, false⟩ ⟨1, false⟩]] none hflag (by decide)
    (by decide) (by simp [Item.stops_word])).2
  rw [List.map_append, List.map_singleton, List.map_singleton, Item.shown_word, Item.shown_cutWord]
    at hfirst
  rw [List.nil_append, List.map_singleton, Item.shown_cutWord] at hcut
  rw [List.map_singleton, Item.shown_word] at hwhole
  exact ⟨hfirst, hcut, hwhole⟩

end Echo
end LineShell
