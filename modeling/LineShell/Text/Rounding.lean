/-!
# Rounding — quotients and sizes

A quotient is rounded to the nearest whole number, and a half goes to the even neighbour. Sizes in
bytes are shown in the largest unit that is not above them, with one decimal below ten.
-/

namespace LineShell
namespace Text

/-- The whole number nearest to `a / b`, the even one of two. -/
def roundDiv (a b : Nat) : Nat :=
  let q := a / b
  let r := a % b
  if 2 * r < b then q
  else if b < 2 * r then q + 1
  else if q % 2 = 0 then q else q + 1

def sizeDigits : Nat := 53

/-- A size with at most `sizeDigits` binary digits. -/
def keepDigits (n : Nat) : Nat :=
  let scale := Nat.pow 2 (n.log2 + 1 - sizeDigits)
  roundDiv n scale * scale

def sizeUnits : List String := ["B", "K", "M", "G", "T", "P", "E"]

/-- The largest unit, of those up to `most`, that is not above a size. -/
def sizeUnit (n : Nat) : Nat → Nat
  | 0 => 0
  | most + 1 => if Nat.pow 1024 (most + 1) ≤ n then most + 1 else sizeUnit n most

/-- A size for people to read. -/
def humanSize (bytes : Nat) : String :=
  let n := keepDigits bytes
  let unit := sizeUnit n (sizeUnits.length - 1)
  let name := sizeUnits.getD unit ""
  let scale := Nat.pow 1024 unit
  if unit = 0 then bytes.repr ++ name
  else if 10 * scale ≤ n then (roundDiv n scale).repr ++ name
  else
    let tenths := roundDiv (10 * n) scale
    (tenths / 10).repr ++ "." ++ (tenths % 10).repr ++ name

end Text
end LineShell
