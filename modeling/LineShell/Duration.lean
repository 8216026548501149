/-!
# Duration — spans of time as text

A span of time is counted in nanoseconds. Its text uses the largest unit that is not longer than the
span, with as many decimals as it takes and no trailing zeros.
-/

namespace LineShell

/-- A span of time in nanoseconds. -/
structure Duration where
  nanos : Nat
  deriving DecidableEq, Repr

namespace Duration

def ofSeconds (n : Nat) : Duration := ⟨n * 1000000000⟩

/-- A number below `10 ^ places` with all its places. -/
def padded (places n : Nat) : List Char :=
  let digits := Nat.toDigits 10 n
  List.replicate (places - digits.length) '0' ++ digits

/-- A number of units of `10 ^ places` nanoseconds, with its decimals. -/
def inUnits (places nanos : Nat) : String :=
  let unit := Nat.pow 10 places
  let whole := nanos / unit
  let decimals := ((padded places (nanos % unit)).reverse.dropWhile (· == '0')).reverse
  if decimals.isEmpty then whole.repr else whole.repr ++ "." ++ String.ofList decimals

def render (d : Duration) : String :=
  if 1000000000 ≤ d.nanos then inUnits 9 d.nanos ++ "s"
  else if 1000000 ≤ d.nanos then inUnits 6 d.nanos ++ "ms"
  else if 1000 ≤ d.nanos then inUnits 3 d.nanos ++ "µs"
  else d.nanos.repr ++ "ns"

end Duration

end LineShell
