import LineShell.Builtin.Echo
import LineShell.Program.Measure

/-!
# Format — printing as a format says

A format is text in which conversions stand for arguments. It is printed again and again until the
arguments are used up; arguments that are missing count as empty, or as zero.

- `Escape.decode` : text with backslash escapes
- `Format.Item`   : a piece of a format
- `Format.items`  : the pieces of a format
- `Format.Numeral` : numbers in arguments
- `Format.print`  : what a format prints, and what it complains about
-/

namespace LineShell

/-! ## Escapes -/

namespace Escape

/-- The byte of an escape, given what stands behind the backslash, and the number of characters that
it takes there. -/
def byte? (cs : List Char) : Option (UInt8 × Nat) :=
  match Echo.digits 8 3 cs, cs with
  | [], 'e' :: _ => some (27, 1)
  | [], c :: _ => (Echo.named? c).map (·, 1)
  | [], [] => none
  | values, _ => some (Echo.byteOf 8 values, values.length)

/-- The bytes of a text with escapes, and whether it asks to stop the output. An octal number may
have a zero in front. A backslash that starts no escape stays. -/
def decode (cs : List Char) : Bytes × Bool :=
  match cs with
  | [] => ([], false)
  | '\\' :: 'c' :: _ => ([], true)
  | '\\' :: cs =>
      let skipped := match cs with
        | '0' :: c :: _ => if (Echo.digit? 8 c).isSome then 1 else 0
        | _ => 0
      match byte? (cs.drop skipped) with
      | some (b, taken) =>
          let tail := decode (cs.drop (skipped + taken))
          (b :: tail.1, tail.2)
      | none =>
          let tail := decode cs
          (92 :: tail.1, tail.2)
  | c :: cs =>
      let tail := decode cs
      (String.utf8EncodeChar c ++ tail.1, tail.2)
termination_by cs.length
decreasing_by all_goals grind

def decodeAll : List String → Bytes × Bool
  | [] => ([], false)
  | [word] => decode word.toList
  | word :: rest =>
      let first := decode word.toList
      if first.2 then first
      else
        let tail := decodeAll rest
        (first.1 ++ 32 :: tail.1, tail.2)

end Escape

namespace Format

/-! ## The pieces of a format -/

/-- A width or a precision. -/
inductive Amount where
  | absent
  | given (n : Nat)
  /-- Taken from the arguments. -/
  | argument
  deriving DecidableEq, Repr

/-- How a conversion is written, apart from its letter. -/
structure Layout where
  flags : List Char := []
  width : Amount := .absent
  precision : Amount := .absent
  deriving DecidableEq, Repr

/-- A piece of a format. -/
inductive Item where
  | bytes (bs : Bytes)
  /-- An argument, in the way that the letter says. The text is how the whole is written. -/
  | conversion (layout : Layout) (letter : Char) (text : String)
  /-- A conversion without a letter, at the end. -/
  | unfinished
  deriving DecidableEq, Repr

def amount : List Char → Amount × Nat
  | '*' :: _ => (.argument, 1)
  | cs =>
      let digits := cs.takeWhile Char.isDigit
      ((Program.number? digits).elim .absent .given, digits.length)

/-- The layout at the head of a text, and how many characters it takes. A point without a number
asks for the precision zero. -/
def layout (cs : List Char) : Layout × Nat :=
  let flags := cs.takeWhile ['#', '-', '+', ' ', '0'].contains
  let rest := cs.drop flags.length
  let (width, taken) := amount rest
  match rest.drop taken with
  | '.' :: rest =>
      let (precision, more) := amount rest
      let precision := if precision = .absent then .given 0 else precision
      (⟨flags, width, precision⟩, flags.length + taken + 1 + more)
  | _ => (⟨flags, width, .absent⟩, flags.length + taken)

def items (cs : List Char) : List Item :=
  match cs with
  | [] => []
  | '%' :: '%' :: cs => .bytes [37] :: items cs
  | '%' :: cs =>
      let (l, taken) := layout cs
      match h : cs.drop taken with
      | [] => [.unfinished]
      | letter :: rest =>
          have : rest.length < cs.length + 1 := by
            have := congrArg List.length h
            simp at this
            omega
          .conversion l letter (String.ofList ('%' :: cs.take (taken + 1))) :: items rest
  | '\\' :: cs =>
      match Escape.byte? cs with
      | some (b, taken) => .bytes [b] :: items (cs.drop taken)
      | none => .bytes [92] :: items cs
  | c :: cs => .bytes (String.utf8EncodeChar c) :: items cs
termination_by cs.length
decreasing_by all_goals grind

/-! ## Numbers in arguments -/

/-- A number as an argument is read: its value, and what is wrong with the argument. -/
structure Numeral where
  value : Int
  complaint : Option String := none
  deriving DecidableEq, Repr

namespace Numeral

/-- The digits of a number with an optional base in front, and how many characters they take. -/
def magnitude (cs : List Char) : List Nat × Nat × Nat :=
  let hex := Echo.digits 16 (cs.length - 2) (cs.drop 2)
  match cs with
  | '0' :: 'x' :: _ | '0' :: 'X' :: _ =>
      if hex.isEmpty then ([0], 10, 1) else (hex, 16, 2 + hex.length)
  | '0' :: _ =>
      let octal := Echo.digits 8 cs.length cs
      (octal, 8, octal.length)
  | _ =>
      let decimal := Echo.digits 10 cs.length cs
      (decimal, 10, decimal.length)

def least : Int := -9223372036854775808
def most : Int := 9223372036854775807
def wordSize : Int := 18446744073709551616

def clamp (signed : Bool) (n : Int) : Int × Bool :=
  if signed then
    if n < least then (least, true) else if most < n then (most, true) else (n, false)
  else if wordSize ≤ n ∨ n ≤ -wordSize then (wordSize - 1, true)
  else (n % wordSize, false)

def read (signed : Bool) (arg : String) : Numeral :=
  match arg.toList, Utf8.encode arg with
  | '\'' :: _, _ :: bs | '"' :: _, _ :: bs => ⟨(bs.head?.getD 0).toNat, none⟩
  | cs, _ =>
      let body := cs.dropWhile fun c => c == ' ' || ('\t' ≤ c && c ≤ '\r')
      let sign := body.takeWhile ['-', '+'].contains
      let (digits, base, taken) := magnitude (body.drop (min sign.length 1))
      if digits.isEmpty || 1 < sign.length then
        ⟨0, if cs.isEmpty then none else some s!"{arg}: expected numeric value"⟩
      else
        let n : Nat := digits.foldl (fun n v => n * base + v) 0
        let (value, cut) := clamp signed (if sign = ['-'] then -(n : Int) else n)
        let rest := body.drop (sign.length + taken)
        if !rest.isEmpty then ⟨value, some s!"{arg}: not completely converted"⟩
        else if cut then ⟨value, some s!"{arg}: {(Fault.os 34).describe}"⟩
        else ⟨value, none⟩

end Numeral

/-! ## Laying out -/

/-- How a conversion is laid out, once its amounts are known. -/
structure Shape where
  flags : List Char
  left : Bool
  width : Nat
  precision : Option Nat
  deriving DecidableEq, Repr

def Shape.pad (s : Shape) (bs : Bytes) : Bytes :=
  let blanks := List.replicate (s.width - bs.length) 32
  if s.left then bs ++ blanks else blanks ++ bs

def digitsIn (base : Nat) (capital : Bool) (n : Nat) : List Char :=
  (Nat.toDigits base n).map fun c => if capital then c.toUpper else c

/-- Lays out a number: the sign and the mark of the base, zeros up to the precision, and then the
digits. Zeros fill the width only if there is no precision. -/
def Shape.number (s : Shape) (letter : Char) (n : Int) : Bytes :=
  let has := fun c => s.flags.contains c
  let signed := letter == 'd' || letter == 'i'
  let base := if letter = 'o' then 8 else if letter = 'x' ∨ letter = 'X' then 16 else 10
  let sign :=
    if n < 0 then ['-'] else if signed && has '+' then ['+']
    else if signed && has ' ' then [' '] else []
  let digits :=
    if n = 0 ∧ s.precision = some 0 then [] else digitsIn base (letter == 'X') n.natAbs
  let exact := List.replicate (s.precision.getD 1 - digits.length) '0' ++ digits
  let marked :=
    if has '#' && base == 8 && exact.head? != some '0' then '0' :: exact else exact
  let mark := if has '#' && base == 16 && n != 0 then ['0', letter] else []
  let start := sign ++ mark
  let zeros :=
    if has '0' && !s.left && s.precision.isNone then s.width - (start.length + marked.length) else 0
  s.pad (Utf8.encode (String.ofList (start ++ List.replicate zeros '0' ++ marked)))

/-! ## Printing -/

/-- How printing goes on. -/
inductive Fate where
  | going
  /-- An argument asked to stop. -/
  | stopped
  /-- The format is at fault. -/
  | failed
  deriving DecidableEq, Repr

/-- What has been printed, and the arguments that are left. -/
structure State where
  args : List String
  /-- The stretches that were printed, last first. -/
  printed : List Bytes := []
  /-- What is to be complained about, last first. -/
  complaints : List String := []
  fate : Fate := .going
  deriving DecidableEq, Repr

namespace State

def next (s : State) : State := { s with args := s.args.tail }

def put (s : State) (bs : Bytes) : State := { s with printed := bs :: s.printed }

def complain (s : State) (text : Option String) : State :=
  { s with complaints := text.toList ++ s.complaints }

def fail (s : State) (text : String) : State :=
  { s.complain (some text) with fate := .failed }

def numeral (s : State) (signed : Bool) : Int × State :=
  let n : Numeral := s.args.head?.elim ⟨0, none⟩ (Numeral.read signed)
  (n.value, s.next.complain n.complaint)

def amount (s : State) : Amount → Option Int × State
  | .absent => (none, s)
  | .given n => (some n, s)
  | .argument =>
      let (n, s) := s.numeral true
      (some n, s)

/-- The shape that a layout asks for. A negative width is a width to the left, and a negative
precision is none. -/
def shape (s : State) (l : Layout) : Shape × State :=
  let (width, s) := s.amount l.width
  let (precision, s) := s.amount l.precision
  let left := l.flags.contains '-' || width.any (· < 0)
  let precision := precision.bind fun n => if n < 0 then none else some n.toNat
  (⟨l.flags, left, (width.getD 0).natAbs, precision⟩, s)

def convert (s : State) (l : Layout) (letter : Char) (text : String) : State :=
  let (shape, s) := s.shape l
  let arg := s.args.head?.getD ""
  let cut := fun (bs : Bytes) => shape.precision.elim bs bs.take
  if letter = 's' then s.next.put (shape.pad (cut (Utf8.encode arg)))
  else if letter = 'c' then s.next.put (shape.pad [(Utf8.encode arg).head?.getD 0])
  else if letter = 'b' then
    let (bs, stop) := Escape.decode arg.toList
    { s.next.put (shape.pad (cut bs)) with fate := if stop then .stopped else .going }
  else if ['d', 'i'].contains letter then
    let (n, s) := s.numeral true
    s.put (shape.number letter n)
  else if ['o', 'u', 'x', 'X'].contains letter then
    let (n, s) := s.numeral false
    s.put (shape.number letter n)
  else s.fail s!"{text}: invalid directive"

def item (s : State) (i : Item) : State :=
  match s.fate, i with
  | .going, .bytes bs => s.put bs
  | .going, .conversion l letter text => s.convert l letter text
  | .going, .unfinished => s.fail "missing format character"
  | _, _ => s

def repeated (format : List Item) : Nat → State → State
  | 0, s => s
  | times + 1, s =>
      let after := format.foldl item s
      if after.fate ≠ .going ∨ after.args.isEmpty ∨ after.args.length = s.args.length then after
      else repeated format times after

end State

/-- What a format prints of its arguments, what it complains about, and whether the format is at
fault. -/
structure Result where
  bytes : Bytes
  complaints : List String
  failed : Bool
  deriving DecidableEq, Repr

def print (format : String) (args : List String) : Result :=
  let s := State.repeated (items format.toList) (args.length + 1) { args }
  ⟨s.printed.reverse.flatten, s.complaints.reverse, s.fate == .failed⟩

end Format
end LineShell
