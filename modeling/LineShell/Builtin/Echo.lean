import LineShell.Builtin

/-!
# Echo — printing arguments

`echo` prints its arguments with a blank between each two. With `-e` backslash escapes are decoded,
and they may stand for any byte, so what is printed need not be text.

- `Echo.decode` : the bytes of an escaped text, and whether it asks to stop
- `Echo.settings` : the leading flags
-/

namespace LineShell
namespace Echo

/-! ## Escapes -/

/-- The escapes that stand for one control byte, or for the backslash. -/
def named? : Char → Option UInt8
  | 'n' => some 10
  | 't' => some 9
  | 'r' => some 13
  | '\\' => some 92
  | 'a' => some 7
  | 'b' => some 8
  | 'f' => some 12
  | 'v' => some 11
  | _ => none

/-- The value of a digit in a base of at most sixteen. -/
def digit? (base : Nat) (c : Char) : Option Nat :=
  let value :=
    if c.isDigit then c.toNat - 48
    else if 'a' ≤ c ∧ c ≤ 'f' then c.toNat - 87
    else if 'A' ≤ c ∧ c ≤ 'F' then c.toNat - 55
    else base
  if value < base then some value else none

/-- The digits at the head of a text, at most so many. -/
def digits (base : Nat) : Nat → List Char → List Nat
  | 0, _ => []
  | _, [] => []
  | most + 1, c :: cs =>
      match digit? base c with
      | some value => value :: digits base most cs
      | none => []

/-- The byte that digits stand for; what does not fit into a byte is lost. -/
def byteOf (base : Nat) (values : List Nat) : UInt8 :=
  UInt8.ofNat (values.foldl (fun n v => n * base + v) 0)

/-- The bytes of a text with escapes, and whether it asks to stop the output. A backslash that
starts no escape stays. -/
def decode (cs : List Char) : Bytes × Bool :=
  match cs with
  | [] => ([], false)
  | ['\\'] => ([92], false)
  | '\\' :: 'c' :: _ => ([], true)
  | '\\' :: '0' :: cs =>
      let values := digits 8 3 cs
      let tail := decode (cs.drop values.length)
      (byteOf 8 values :: tail.1, tail.2)
  | '\\' :: 'x' :: cs =>
      let values := digits 16 2 cs
      let tail := decode (cs.drop values.length)
      if values.isEmpty then (92 :: 120 :: tail.1, tail.2) else (byteOf 16 values :: tail.1, tail.2)
  | '\\' :: c :: cs =>
      let tail := decode cs
      match named? c with
      | some byte => (byte :: tail.1, tail.2)
      | none => (92 :: String.utf8EncodeChar c ++ tail.1, tail.2)
  | c :: cs =>
      let tail := decode cs
      (String.utf8EncodeChar c ++ tail.1, tail.2)
termination_by cs.length
decreasing_by all_goals simp_all <;> omega

/-! ## Flags -/

/-- How the arguments are printed. -/
structure Settings where
  newline : Bool := true
  escapes : Bool := false
  deriving DecidableEq, Repr

def Settings.apply (s : Settings) : Char → Settings
  | 'n' => { s with newline := false }
  | 'e' => { s with escapes := true }
  | _ => { s with escapes := false }

def flagLetters? (word : String) : Option (List Char) :=
  match word.toList with
  | '-' :: c :: cs => if (c :: cs).all ['n', 'e', 'E'].contains then some (c :: cs) else none
  | _ => none

/-- The leading flag words are settings, and the rest is to be printed. -/
def settings (s : Settings) : List String → Settings × List String
  | [] => (s, [])
  | word :: rest =>
      match flagLetters? word with
      | some letters => settings (letters.foldl Settings.apply s) rest
      | none => (s, word :: rest)

/-! ## Output -/

/-- The bytes of arguments with escapes, and whether one of them asks to stop. -/
def decodeAll : List String → Bytes × Bool
  | [] => ([], false)
  | [word] => decode word.toList
  | word :: rest =>
      let first := decode word.toList
      if first.2 then first
      else
        let tail := decodeAll rest
        (first.1 ++ 32 :: tail.1, tail.2)

/-- Everything that `echo` prints. -/
def output (args : List String) : Bytes :=
  let (s, words) := settings {} args
  let (bytes, stop) :=
    if s.escapes then decodeAll words else (Utf8.encode (" ".intercalate words), false)
  if s.newline && !stop then bytes ++ [10] else bytes

end Echo

/-- `echo [-neE] [ARG]...` prints its arguments. -/
def Builtin.echo : Builtin := fun args _ => do
  Action.print (Echo.output args)
  return .success

end LineShell
