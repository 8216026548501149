/-!
# Utf8 — bytes and text

Files, pipes and streams carry bytes; words and messages are text. Text is written as UTF-8. Bytes
are read back either strictly, or with the replacement character in place of every stretch that is
no character: such a stretch is the longest one that could still have become a character.

- `encode`  : the bytes of a string
- `decode?` : the string of bytes that are well-formed
- `decodeLossy` : the string of any bytes
-/

namespace LineShell

abbrev Bytes := List UInt8

namespace Utf8

def encode (s : String) : Bytes :=
  s.toList.flatMap String.utf8EncodeChar

/-- A character of which some bytes have been read: how many are missing, the bounds of the next
one, and the value so far. -/
structure Partial where
  missing : Nat
  low : UInt8
  high : UInt8
  value : Nat
  deriving DecidableEq, Repr

/-- What a lead byte announces. The bounds of the second byte exclude long forms, surrogates and
values above the last character. -/
def Partial.ofLead? (b : UInt8) : Option Partial :=
  if 0xC2 ≤ b ∧ b ≤ 0xDF then some ⟨1, 0x80, 0xBF, b.toNat % 32⟩
  else if b = 0xE0 then some ⟨2, 0xA0, 0xBF, 0⟩
  else if b = 0xED then some ⟨2, 0x80, 0x9F, 13⟩
  else if 0xE1 ≤ b ∧ b ≤ 0xEF then some ⟨2, 0x80, 0xBF, b.toNat % 16⟩
  else if b = 0xF0 then some ⟨3, 0x90, 0xBF, 0⟩
  else if 0xF1 ≤ b ∧ b ≤ 0xF3 then some ⟨3, 0x80, 0xBF, b.toNat % 8⟩
  else if b = 0xF4 then some ⟨3, 0x80, 0x8F, 4⟩
  else none

/-- One byte at the start of a character: what is known to be read, and what is going on. -/
def start (b : UInt8) : List (Option Char) × Option Partial :=
  if b < 0x80 then ([some (Char.ofNat b.toNat)], none)
  else
    match Partial.ofLead? b with
    | some p => ([], some p)
    | none => ([none], none)

/-- One byte in any state. A byte that cannot go on with a character ends it as broken and starts
anew. -/
def step : Option Partial → UInt8 → List (Option Char) × Option Partial
  | none, b => start b
  | some p, b =>
      if p.low ≤ b ∧ b ≤ p.high then
        let value := p.value * 64 + b.toNat % 64
        if p.missing ≤ 1 then ([some (Char.ofNat value)], none)
        else ([], some ⟨p.missing - 1, 0x80, 0xBF, value⟩)
      else (none :: (start b).1, (start b).2)

/-- A reader on its way: what it has read so far, last first, and the character that is going on. -/
structure Reader where
  found : List (Option Char) := []
  going : Option Partial := none

def Reader.feed (r : Reader) (b : UInt8) : Reader :=
  let next := step r.going b
  ⟨next.1.reverse ++ r.found, next.2⟩

def Reader.finish (r : Reader) : List (Option Char) :=
  (if r.going.isSome then none :: r.found else r.found).reverse

/-- The characters of bytes, with `none` for each broken stretch. -/
def read (bs : Bytes) : List (Option Char) :=
  (bs.foldl Reader.feed {}).finish

def decode? (bs : Bytes) : Option String :=
  ((read bs).mapM id).map String.ofList

/-- The string of any bytes, with a replacement character for each broken stretch. -/
def decodeLossy (bs : Bytes) : String :=
  String.ofList ((read bs).map (·.getD '\uFFFD'))

end Utf8

end LineShell
