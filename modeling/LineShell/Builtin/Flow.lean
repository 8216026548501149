import LineShell.Builtin

/-!
# Flow — `true`, `false` and `exit`

`exit` ends the session with the number at the head of its argument.
-/

namespace LineShell
namespace Builtin

/-- The largest number that a status is read as before it is brought into range. -/
def maxRead : Nat := 9223372036854775807

def minStatus : Int := -2147483648
def maxStatus : Int := 2147483647

/-- The number of a run of digits. No digits, or more than can be read, count as zero. -/
def readDigits (cs : List Char) : Nat :=
  let n := cs.foldl (fun n c => n * 10 + (c.toNat - 48)) 0
  if n ≤ maxRead then n else 0

def clampStatus (n : Int) : Int :=
  max minStatus (min n maxStatus)

/-- The status that an argument of `exit` asks for: the number at its head, behind white space. -/
def exitStatus (arg : String) : Int :=
  let number (cs : List Char) : Int := readDigits (cs.takeWhile Char.isDigit)
  match Text.trimStart arg.toList with
  | '-' :: cs => clampStatus (-(number cs))
  | '+' :: cs => clampStatus (number cs)
  | cs => clampStatus (number cs)

/-- `exit [N]` ends the session. -/
def exit : Builtin := fun args _ =>
  return .exit ((args.head?.map exitStatus).getD 0)

/-- `true` succeeds. -/
def succeed : Builtin := fun _ _ => return .success

/-- `false` fails. -/
def fail : Builtin := fun _ _ => return .failure

end Builtin
end LineShell
