import LineShell.Text.Utf8

/-!
# Quoted — names in messages

A message shows the name of a file so that it can be told from the words around it. A name of plain
characters stands as it is, and any other stands between quotes. Bytes that cannot be printed are
written as codes, in stretches with quotes of their own.

- `Quoted.isPlain` : names that need no quotes
- `Quoted.always`  : a name between quotes
- `Quoted.name`    : a name, between quotes only if it needs them
-/

namespace LineShell
namespace Quoted

/-! ## Bytes -/

def isPrintable (b : UInt8) : Bool := 32 ≤ b && b < 127

def char (b : UInt8) : Char := Char.ofNat b.toNat

def isOneOf (chars : String) (b : UInt8) : Bool :=
  isPrintable b && chars.toList.contains (char b)

/-- The code of a byte that cannot be printed: a letter, or three octal digits. -/
def code? (b : UInt8) : Option (List Char) :=
  let digit := fun n => Char.ofNat (48 + n % 8)
  match b with
  | 7 => some ['\\', 'a']
  | 8 => some ['\\', 'b']
  | 9 => some ['\\', 't']
  | 10 => some ['\\', 'n']
  | 11 => some ['\\', 'v']
  | 12 => some ['\\', 'f']
  | 13 => some ['\\', 'r']
  | _ =>
      if isPrintable b then none
      else some ['\\', digit (b.toNat / 64), digit (b.toNat / 8), digit b.toNat]

/-! ## Names without quotes -/

def special : String := " !\"$&'()*:;<=>?[\\^\x60|"

/-- Whether a name needs no quotes. A hash or a tilde calls for them only at the start, and a brace
only if it is the whole name. -/
def isPlain (bs : Bytes) : Bool :=
  !bs.isEmpty && bs.all (fun b => isPrintable b && !isOneOf special b) &&
    !bs.head?.any (isOneOf "#~") && !(bs.length == 1 && bs.all (isOneOf "\x7b\x7d"))

/-! ## Names between quotes -/

/-- Whether a byte means the same between double quotes as between single ones. -/
def isNeutral (b : UInt8) : Bool :=
  isPrintable b && ((char b).isAlphanum || isOneOf " '%+,-./:@]_" b)

def fitsDouble : Bytes → Bool
  | [] => true
  | b :: bs => (isNeutral b || isOneOf "#~" b) && bs.all isNeutral

/-- The rest of a name between single quotes, the last quote included; `coded` tells whether a
stretch of codes is going on. -/
def single (coded : Bool) : Bytes → List Char
  | [] => ['\'']
  | b :: bs =>
      match code? b with
      | some code => (if coded then [] else ['\'', '$', '\'']) ++ code ++ single true bs
      | none =>
          if char b = '\'' then '\'' :: '\\' :: '\'' :: '\'' :: single false bs
          else (if coded then ['\'', '\''] else []) ++ char b :: single false bs

/-- A name between quotes. Double quotes are taken for a name with a single quote in it, if nothing
else in it stands against them. -/
def always (text : String) : String :=
  let bs := Utf8.encode text
  if bs.any (isOneOf "'") && fitsDouble bs then "\"" ++ text ++ "\""
  else String.ofList ('\'' :: single false bs)

def name (text : String) : String :=
  if isPlain (Utf8.encode text) then text else always text

end Quoted
end LineShell
