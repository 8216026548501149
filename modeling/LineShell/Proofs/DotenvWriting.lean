import LineShell.Dotenv

/-!
# DotenvWriting — files that are read back as they were written

A dotenv file can be written so that reading it gives back exactly what was put in, whatever the
values are: between double quotes the quote, the backslash and the characters that would end or bend
a line are escaped, and between single quotes everything but the quote and the line feed stands for
itself. A file is read line by line, so files can be put one behind the other.

* `Entry`, `Entry.render` — an assignment and how it is written;
* `quoted?_body` — a quoted value is read back;
* `parseLine?_render` — so is a line;
* `parse_append_newline` — two files, one behind the other;
* `written_entries_are_read_back` — whole files.
-/

namespace LineShell

/-! ## Cutting and trimming -/

namespace Text

theorem splitOn_ne_nil (sep : Char) (cs : List Char) : splitOn sep cs ≠ [] := by
  cases cs with
  | nil => simp [splitOn]
  | cons c cs =>
      rw [splitOn]
      split
      · simp
      · split <;> simp

/-- A separator parts the pieces before it from those behind it. -/
theorem splitOn_append_sep (sep : Char) (a b : List Char) :
    splitOn sep (a ++ sep :: b) = splitOn sep a ++ splitOn sep b := by
  induction a with
  | nil => simp [splitOn]
  | cons c cs ih =>
      rw [List.cons_append, splitOn, splitOn, ih]
      split
      · rfl
      · cases hcs : splitOn sep cs with
        | nil => exact absurd hcs (splitOn_ne_nil sep cs)
        | cons piece rest => rfl

theorem splitOn_of_not_mem {sep : Char} {cs : List Char} (h : sep ∉ cs) :
    splitOn sep cs = [cs] := by
  induction cs with
  | nil => rfl
  | cons c cs ih =>
      rw [List.mem_cons, not_or] at h
      rw [splitOn, if_neg (Ne.symm h.1), ih h.2]

/-- A cut is made at the first separator. -/
theorem cut?_append {sep : Char} {front : List Char} (h : sep ∉ front) (back : List Char) :
    cut? sep (front ++ sep :: back) = some (front, back) := by
  induction front with
  | nil => simp [cut?]
  | cons c cs ih =>
      rw [List.mem_cons, not_or] at h
      rw [List.cons_append, cut?, if_neg (Ne.symm h.1), ih h.2]
      rfl

def Tight (cs : List Char) : Prop :=
  (∀ c ∈ cs.head?, isSpace c = false) ∧ ∀ d ∈ cs.getLast?, isSpace d = false

theorem Tight.trimStart {cs : List Char} (h : Tight cs) : Text.trimStart cs = cs := by
  cases cs with
  | nil => rfl
  | cons c cs =>
      have hc : isSpace c = false := h.1 c rfl
      simp [Text.trimStart, hc]

/-- There is nothing to trim off a tight text. -/
theorem Tight.trim {cs : List Char} (h : Tight cs) : Text.trim cs = cs := by
  rw [Text.trim, h.trimStart]
  rcases List.eq_nil_or_concat cs with rfl | ⟨front, d, rfl⟩
  · rfl
  · have hd : isSpace d = false := h.2 d (by simp)
    simp [trimEnd, dropEndWhile, hd]

end Text

namespace Dotenv

/-! ## Keys -/

def isKeyChar (c : Char) : Bool :=
  c.isAlphanum || c == '_'

theorem isSpace_of_isKeyChar {c : Char} (h : isKeyChar c = true) : Text.isSpace c = false := by
  have hrange : 48 ≤ c.toNat ∧ c.toNat ≤ 122 := by
    rcases Bool.or_eq_true_iff.1 h with hletter | hlow
    · rcases Bool.or_eq_true_iff.1 hletter with halpha | hdigit
      · rcases Bool.or_eq_true_iff.1 halpha with hupper | hlower
        · have hcapital : 65 ≤ c.val ∧ c.val ≤ 90 := of_decide_eq_true hupper
          exact ⟨Nat.le_trans (by decide) hcapital.1, Nat.le_trans hcapital.2 (by decide)⟩
        · have hsmall : 97 ≤ c.val ∧ c.val ≤ 122 := by simpa using Bool.and_eq_true_iff.1 hlower
          exact ⟨Nat.le_trans (by decide) hsmall.1, hsmall.2⟩
      · have hdecimal : 48 ≤ c.val ∧ c.val ≤ 57 := by simpa [Char.isDigit] using hdigit
        exact ⟨hdecimal.1, Nat.le_trans hdecimal.2 (by decide)⟩
    · rw [eq_of_beq hlow]
      decide
  simp only [Text.isSpace, Bool.or_eq_false_iff, Bool.and_eq_false_iff, decide_eq_false_iff_not,
    beq_eq_false_iff_ne]
  omega

theorem isKeyChar_of_isKey {key : List Char} (h : isKey key = true) :
    ∀ c ∈ key, isKeyChar c = true := by
  cases key with
  | nil => simp
  | cons first rest =>
      simp only [isKey, Bool.and_eq_true, Bool.or_eq_true, List.all_eq_true] at h
      intro c hc
      rcases List.mem_cons.1 hc with rfl | hrest
      · rcases h.1 with halpha | hlow
        · simp [isKeyChar, Char.isAlphanum, halpha]
        · simp [isKeyChar, hlow]
      · simpa [isKeyChar] using h.2 c hrest

/-- What is no character of keys does not occur in one. -/
theorem not_mem_of_isKey {key : List Char} (h : isKey key = true) {c : Char}
    (hc : isKeyChar c = false) :
    c ∉ key := by
  intro hmem
  rw [isKeyChar_of_isKey h c hmem] at hc
  cases hc

/-- Keys are tight. -/
theorem tight_of_isKey {key : List Char} (h : isKey key = true) : Text.Tight key := by
  constructor
  · intro c hc
    exact isSpace_of_isKeyChar (isKeyChar_of_isKey h c (List.mem_of_mem_head? hc))
  · intro d hd
    exact isSpace_of_isKeyChar (isKeyChar_of_isKey h d (List.mem_of_mem_getLast? hd))

/-! ## Writing -/

/-- The quotes around a value. -/
inductive Quoting where
  | double
  | single
  deriving DecidableEq, Repr

/-- A character as it is written between double quotes. -/
def escape : Char → List Char
  | '\\' => ['\\', '\\']
  | '"' => ['\\', '"']
  | '\n' => ['\\', 'n']
  | '\r' => ['\\', 'r']
  | '\t' => ['\\', 't']
  | c => [c]

namespace Quoting

/-- The quote itself. -/
def mark : Quoting → Char
  | .double => '"'
  | .single => '\''

/-- A value as it is written between the quotes. -/
def body : Quoting → List Char → List Char
  | .double, value => value.flatMap escape
  | .single, value => value

/-- The quotes can hold the value: single quotes hold neither themselves nor a line feed. -/
def Holds : Quoting → List Char → Prop
  | .double, _ => True
  | .single, value => '\'' ∉ value ∧ '\n' ∉ value

end Quoting

/-- An assignment to be written, with the quotes around its value and perhaps the word `export`
before it. -/
structure Entry where
  key : String
  value : String
  quoting : Quoting := .double
  exported : Bool := false
  deriving DecidableEq, Repr

namespace Entry

def assignment (e : Entry) : Assignment :=
  (e.key, e.value)

/-- The line of an entry. -/
def render (e : Entry) : String :=
  (if e.exported then "export " else "") ++ e.key ++ "=" ++
    String.ofList (e.quoting.mark :: (e.quoting.body e.value.toList ++ [e.quoting.mark]))

/-- The entry has a key and quotes that can hold its value. -/
structure Writable (e : Entry) : Prop where
  key : isKey e.key.toList = true
  value : e.quoting.Holds e.value.toList

end Entry

def write (entries : List Entry) : String :=
  String.join (entries.map fun e => e.render ++ "\n")

/-! ## Reading back a line -/

/-- What stands between the quotes does not end the line. -/
theorem newline_not_mem_body {q : Quoting} {value : List Char} (h : q.Holds value) :
    '\n' ∉ q.body value := by
  cases q with
  | single => exact h.2
  | double =>
      intro hmem
      obtain ⟨c, -, hc⟩ := List.mem_flatMap.1 hmem
      unfold escape at hc
      split at hc
      · simp at hc
      · simp at hc
      · simp at hc
      · simp at hc
      · simp at hc
      · next hfeed _ _ => exact hfeed (List.mem_singleton.1 hc).symm

/-- An escaped character is read back as itself. -/
theorem quoted?_escape (c : Char) (rest : List Char) :
    quoted? '"' (escape c ++ rest) = (quoted? '"' rest).map (c :: ·) := by
  unfold escape
  split
  · simp [quoted?, unescape]
  · simp [quoted?, unescape]
  · simp [quoted?, unescape]
  · simp [quoted?, unescape]
  · simp [quoted?, unescape]
  · next hslash hquote _ _ _ =>
    have hslash' : (c == '\\' && '"' == '"') = false := by
      simpa using hslash
    rw [List.singleton_append, quoted?.eq_def]
    dsimp only
    rw [if_neg hquote, if_neg (by rw [hslash']; exact Bool.false_ne_true)]

/-- The text between quotes is read up to the closing one, and it is the value again. -/
theorem quoted?_body {q : Quoting} {value : List Char} (h : q.Holds value) (rest : List Char) :
    quoted? q.mark (q.body value ++ q.mark :: rest) = some value := by
  cases q with
  | double =>
      rw [Quoting.body, Quoting.mark]
      -- A condition on the whole value says nothing of its tail that is needed, and would be in the
      -- way of the induction.
      clear h
      induction value with
      | nil => simp [quoted?.eq_def]
      | cons c cs ih =>
          rw [List.flatMap_cons, List.append_assoc, quoted?_escape, ih]
          rfl
  | single =>
      rw [Quoting.body, Quoting.mark]
      have hquote : '\'' ∉ value := h.1
      clear h
      induction value with
      | nil => simp [quoted?.eq_def]
      | cons c cs ih =>
          rw [List.mem_cons, not_or] at hquote
          rw [List.cons_append, quoted?.eq_def]
          simp [Ne.symm hquote.1, ih hquote.2]

/-- A quoted value is read back, whichever quotes are used. -/
theorem parseValue_quoted {q : Quoting} {value : List Char} (h : q.Holds value) :
    parseValue (q.mark :: (q.body value ++ [q.mark])) = value := by
  have hspace : Text.isSpace q.mark = false := by cases q <;> decide
  have htight : Text.Tight (q.mark :: (q.body value ++ [q.mark])) := by
    constructor
    · intro c hc
      cases hc
      exact hspace
    · intro d hd
      rw [← List.cons_append, List.getLast?_concat] at hd
      cases hd
      exact hspace
  have hread := quoted?_body h []
  rw [parseValue, htight.trim]
  cases q with
  | double =>
      rw [Quoting.mark] at hread ⊢
      simp only [hread, Option.getD_some]
  | single =>
      rw [Quoting.mark] at hread ⊢
      simp only [hread, Option.getD_some]

/-- No key with an equals sign behind it starts with the word `export` and a blank. -/
theorem exportWord_not_prefix {key : List Char} (h : isKey key = true) (rest : List Char) :
    ¬ exportWord <+: key ++ '=' :: rest := by
  intro hprefix
  have hblank : ' ' ∉ key := not_mem_of_isKey h (by decide)
  rcases List.prefix_or_prefix_of_prefix hprefix (List.prefix_append key ('=' :: rest)) with hword |
    ⟨tail, htail⟩
  · exact hblank (hword.subset (by decide))
  · rw [← htail, List.prefix_append_right_inj] at hprefix
    cases tail with
    | nil =>
        rw [List.append_nil] at htail
        exact hblank (by rw [htail]; decide)
    | cons d ds =>
        have hd : d = '=' := (List.cons_prefix_cons.1 hprefix).1
        have hmem : '=' ∈ exportWord := by simp [← htail, hd]
        exact absurd hmem (by decide)

/-- A key, an equals sign and whatever is on the line behind them. -/
theorem dropExport_key {key : List Char} (h : isKey key = true) (exported : Bool)
    (rest : List Char) :
    dropExport ((if exported then exportWord else []) ++ key ++ '=' :: rest) =
      key ++ '=' :: rest := by
  cases exported with
  | false =>
      rw [dropExport, if_neg]
      · rfl
      · simpa using exportWord_not_prefix h rest
  | true =>
      have hhead : Text.trimStart (key ++ '=' :: rest) = key ++ '=' :: rest := by
        cases key with
        | nil => cases h
        | cons c cs =>
            have hc := isSpace_of_isKeyChar (isKeyChar_of_isKey h c List.mem_cons_self)
            simp [Text.trimStart, hc]
      rw [dropExport, if_pos]
      · simpa using hhead
      · simp [List.append_assoc]

theorem toList_render (e : Entry) :
    e.render.toList = (if e.exported then exportWord else []) ++ e.key.toList ++
      '=' :: e.quoting.mark :: (e.quoting.body e.value.toList ++ [e.quoting.mark]) := by
  have hword : "export ".toList = exportWord := by decide
  cases hexported : e.exported with
  | false => simp [Entry.render, hexported]
  | true => simp [Entry.render, hexported, hword]

section Lines

variable {e : Entry} (h : e.Writable)
include h

/-- The line of an entry starts with a character of keys, be it that of the key or that of the word
`export`. -/
theorem exists_render_eq_cons : ∃ c rest, e.render.toList = c :: rest ∧ isKeyChar c = true := by
  rw [toList_render]
  cases e.exported with
  | true => exact ⟨'e', _, rfl, by decide⟩
  | false =>
      have hkey := h.key
      cases hcs : e.key.toList with
      | nil =>
          rw [hcs] at hkey
          cases hkey
      | cons c cs =>
          rw [hcs] at hkey
          exact ⟨c, _, rfl, isKeyChar_of_isKey hkey c List.mem_cons_self⟩

/-- A written entry is tight. -/
theorem tight_render : Text.Tight e.render.toList := by
  constructor
  · intro c hc
    obtain ⟨first, rest, hline, hfirst⟩ := exists_render_eq_cons h
    rw [hline] at hc
    cases hc
    exact isSpace_of_isKeyChar hfirst
  · intro d hd
    have hlast : e.render.toList.getLast? = some e.quoting.mark := by
      rw [toList_render]
      simp [List.getLast?_append, List.getLast?_cons]
    rw [hlast] at hd
    cases hd
    cases e.quoting <;> decide

/-- A written entry is one line. -/
theorem newline_not_mem_render : '\n' ∉ e.render.toList := by
  have hkey : '\n' ∉ e.key.toList := not_mem_of_isKey h.key (by decide)
  have hbody := newline_not_mem_body h.value
  have hmark : '\n' ≠ e.quoting.mark := by cases e.quoting <;> decide
  have hword : '\n' ∉ if e.exported then exportWord else [] := by cases e.exported <;> decide
  rw [toList_render]
  simp [hkey, hbody, hmark, hword]

/-- An entry is read back from its line. -/
theorem parseLine?_render : parseLine? e.render.toList = some e.assignment := by
  have hkey := h.key
  have hequals : '=' ∉ e.key.toList := not_mem_of_isKey hkey (by decide)
  have hcomment : ¬ (e.render.toList.isEmpty || e.render.toList.head? == some '#') = true := by
    obtain ⟨first, rest, hline, hfirst⟩ := exists_render_eq_cons h
    have hsharp : first ≠ '#' := by
      rintro rfl
      exact absurd hfirst (by decide)
    simp [hline, hsharp]
  rw [parseLine?, (tight_render h).trim, if_neg hcomment]
  -- The `export` is dropped, and the first equals sign is the one behind the key.
  rw [toList_render, dropExport_key hkey, Text.cut?_append hequals]
  simp only [Option.bind_eq_bind, Option.bind_some, (tight_of_isKey hkey).trim, hkey, if_true,
    parseValue_quoted h.value, String.ofList_toList, Entry.assignment]

end Lines

/-! ## Reading back a file -/

/-- A file is read line by line, so what is in one part of it does not touch the other. -/
theorem parse_append_newline (a b : String) : parse (a ++ "\n" ++ b) = parse a ++ parse b := by
  have hlist : (a ++ "\n" ++ b).toList = a.toList ++ '\n' :: b.toList := by simp
  rw [parse, hlist, Text.splitOn_append_sep, List.filterMap_append]
  rfl

/-- A text of one line holds at most one assignment. -/
theorem parse_line {s : String} (h : '\n' ∉ s.toList) : parse s = (parseLine? s.toList).toList := by
  rw [parse, Text.splitOn_of_not_mem h]
  cases hline : parseLine? s.toList <;> simp [hline]

/-- A written entry is read back. -/
theorem parse_entry {e : Entry} (h : e.Writable) : parse e.render = [e.assignment] := by
  rw [parse_line (newline_not_mem_render h), parseLine?_render h]
  rfl

/-- Written entries are read back in order. -/
theorem parse_write {entries : List Entry} (h : ∀ e ∈ entries, e.Writable) :
    parse (write entries) = entries.map Entry.assignment := by
  induction entries with
  | nil => decide
  | cons e rest ih =>
      have hrest : ∀ e ∈ rest, e.Writable := fun e he => h e (List.mem_cons_of_mem _ he)
      calc parse (write (e :: rest))
          = parse (e.render ++ "\n" ++ write rest) := by simp [write, String.join_cons]
        _ = parse e.render ++ parse (write rest) := parse_append_newline _ _
        _ = [e.assignment] ++ rest.map Entry.assignment := by
              rw [parse_entry (h e List.mem_cons_self), ih hrest]

/-- The end of the last line may be missing. -/
theorem parse_intercalate {entries : List Entry} (h : ∀ e ∈ entries, e.Writable) :
    parse ("\n".intercalate (entries.map Entry.render)) = entries.map Entry.assignment := by
  induction entries with
  | nil => decide
  | cons e rest ih =>
      have hentry := parse_entry (h e List.mem_cons_self)
      have hrest := ih fun e he => h e (List.mem_cons_of_mem _ he)
      -- A line feed is written only where another line follows.
      cases rest with
      | nil => simpa using hentry
      | cons e' rest =>
          rw [List.map_cons, List.map_cons, String.intercalate_cons_cons, parse_append_newline,
            hentry, ← List.map_cons, hrest]
          rfl

/-- Whatever entries are written, in double quotes or in single quotes that can hold them, exported
or not, the file gives them back in order, whether or not its last line is ended. And of two texts
with a line feed between them, each is read as if it stood alone, whatever is in the other. -/
theorem written_entries_are_read_back :
    (∀ entries : List Entry, (∀ e ∈ entries, e.Writable) →
      parse (write entries) = entries.map Entry.assignment ∧
      parse ("\n".intercalate (entries.map Entry.render)) = entries.map Entry.assignment) ∧
    ∀ a b : String, parse (a ++ "\n" ++ b) = parse a ++ parse b := by
  refine ⟨?_, parse_append_newline⟩
  intro entries h
  exact ⟨parse_write h, parse_intercalate h⟩

/-- Values that would end a quote, a line, a key or a value, were they not written with care. -/
theorem awkward_entries_are_read_back :
    parse (write [
      { key := "A", value := "say \"#1\" \\ = \r\n\t ", exported := true },
      { key := "export_", value := "\\n # \"", quoting := .single },
      { key := "A", value := "" }]) =
    [("A", "say \"#1\" \\ = \r\n\t "), ("export_", "\\n # \""), ("A", "")] :=
  (written_entries_are_read_back.1 _ (by
    intro e he
    simp only [List.mem_cons, List.not_mem_nil, or_false] at he
    rcases he with rfl | rfl | rfl
    · exact ⟨by decide, trivial⟩
    · exact ⟨by decide, by simp, by simp⟩
    · exact ⟨by decide, trivial⟩)).1

end Dotenv
end LineShell
