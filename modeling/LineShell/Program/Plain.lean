import LineShell.Program.Measure
import LineShell.Program.Printing

/-!
# Plain — the programs that run nothing else

- `Program.sleep` : waiting
- `Program.plainPrograms` : all programs of the system that run no other, by name
-/

namespace LineShell
namespace Program

/-! ## `sleep` -/

def unitNanos? : List Char → Option Nat
  | [] | ['s'] => some 1000000000
  | ['m'] => some (60 * 1000000000)
  | ['h'] => some (3600 * 1000000000)
  | ['d'] => some (86400 * 1000000000)
  | _ => none

/-- The length of an interval in nanoseconds: a number, which may have decimals, and a unit. -/
def interval? (text : String) : Option Nat := do
  let cs := text.toList
  let whole := cs.takeWhile Char.isDigit
  let rest := cs.drop whole.length
  let decimals := match rest with
    | '.' :: rest => rest.takeWhile Char.isDigit
    | _ => []
  let behind := match rest with
    | '.' :: rest => rest.drop decimals.length
    | _ => rest
  let digits ← number? (whole ++ decimals)
  let nanos ← unitNanos? behind
  return digits * nanos / Nat.pow 10 decimals.length

def sleep : Program := withOptions [] 1 fun options => do
  let intervals := options.operands.map interval?
  match options.operands, (options.operands.zip intervals).filter fun p => p.2.isNone with
  | [], _ => Work.refuse "missing operand" 1
  | _, [] =>
      Work.spend (intervals.foldl (fun n i => n + i.getD 0) 0)
      return 0
  | _, bad =>
      let reasons := bad.map fun p => s!"invalid time interval {Quoted.always p.1}"
      for reason in reasons.dropLast do
        Work.report reason
      Work.refuse (reasons.getLast?.getD "") 1

/-! ## All of them -/

def pwd : Program := fun _ => do
  Work.finish (Utf8.encode ((← get).cwd ++ "\n")) 0

def plainPrograms : List (String × Program) :=
  [("cat", cat), ("tr", tr), ("sort", sort), ("head", head), ("wc", wc), ("sleep", sleep),
    ("printf", printf), ("echo", echo), ("pwd", pwd), ("true", fun _ => return 0),
    ("false", fun _ => return 1)]

end Program
end LineShell
