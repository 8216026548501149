/-!
# Calendar — moments as dates

Days since the start of 1970 are turned into a date of the Gregorian calendar. Years are counted
from March, so that the leap day is the last of the year.
-/

namespace LineShell
namespace Text

/-- A date. -/
structure Date where
  year : Int
  month : Nat
  day : Nat
  deriving DecidableEq, Repr

/-- The date of a day, counted from the start of 1970. -/
def Date.ofDays (days : Int) : Date :=
  let z := days + 719468
  let era := z.fdiv 146097
  let dayOfEra := (z - era * 146097).toNat
  let yearOfEra := (dayOfEra - dayOfEra / 1460 + dayOfEra / 36524 - dayOfEra / 146096) / 365
  let dayOfYear := dayOfEra - (365 * yearOfEra + yearOfEra / 4 - yearOfEra / 100)
  let marchMonth := (5 * dayOfYear + 2) / 153
  let day := dayOfYear - (153 * marchMonth + 2) / 5 + 1
  let month := if marchMonth < 10 then marchMonth + 3 else marchMonth - 9
  let year := (yearOfEra : Int) + era * 400 + (if month ≤ 2 then 1 else 0)
  ⟨year, month, day⟩

def padNumber (width n : Nat) : String :=
  let digits := n.repr
  String.ofList (List.replicate (width - digits.length) '0') ++ digits

/-- A year; those beyond four digits and those before year 0 have a sign. -/
def yearText (year : Int) : String :=
  if year < 0 then "-" ++ padNumber 4 (-year).toNat
  else if 9999 < year then "+" ++ year.toNat.repr
  else padNumber 4 year.toNat

/-- A moment given in seconds since the start of 1970, as a date with hour and minute. -/
def momentText (seconds : Int) : String :=
  let days := seconds.fdiv 86400
  let rest := (seconds - days * 86400).toNat
  let date := Date.ofDays days
  yearText date.year ++ "-" ++ padNumber 2 date.month ++ "-" ++ padNumber 2 date.day ++ " " ++
    padNumber 2 (rest / 3600) ++ ":" ++ padNumber 2 (rest % 3600 / 60)

end Text
end LineShell
