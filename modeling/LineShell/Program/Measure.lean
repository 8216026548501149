import LineShell.Program.Filter

/-!
# Measure — the first part and the size of bytes

`head` prints the first bytes or lines of its operands, `wc` counts bytes, lines and words.

- `HeadRequest` : how much of each operand is printed
- `Count`       : what is counted
-/

namespace LineShell
namespace Program

def number? (cs : List Char) : Option Nat :=
  if cs.isEmpty || !cs.all Char.isDigit then none
  else some (cs.foldl (fun n c => n * 10 + (c.toNat - 48)) 0)

/-! ## `head` -/

/-- How much `head` prints of each operand. -/
structure HeadRequest where
  /-- Whether bytes are counted, and not lines. -/
  bytes : Bool := false
  count : Nat := 10
  /-- Whether so many are left out at the end. -/
  fromEnd : Bool := false
  operands : List String := []
  deriving DecidableEq, Repr

/-- Why the words of `head` are refused, and whether to tell where to read more. -/
structure Refusal where
  reason : String
  hint : Bool := true
  deriving DecidableEq, Repr

namespace HeadRequest

def unit? : List Char → Option Nat
  | [] => some 1
  | ['b'] => some 512
  | ['k'] | ['K'] => some 1024
  | ['M'] => some (1024 * 1024)
  | ['k', 'B'] => some 1000
  | _ => none

/-- Takes a number for a letter. A dash in front of it leaves so many out at the end, and a plus
changes nothing. -/
def withCount (r : HeadRequest) (bytes : Bool) (text : String) : Except Refusal HeadRequest :=
  let cs := text.toList
  let fromEnd := cs.head? == some '-'
  let body := if fromEnd || cs.head? == some '+' then cs.drop 1 else cs
  let digits := body.takeWhile Char.isDigit
  match number? digits, unit? (body.drop digits.length) with
  | some n, some factor => .ok { r with bytes, fromEnd, count := n * factor }
  | _, _ =>
      let noun := if bytes then "bytes" else "lines"
      .error ⟨s!"invalid number of {noun}: {Quoted.always text}", false⟩

/-- Takes the words of `head`. -/
def read (r : HeadRequest) : List String → Except Refusal HeadRequest
  | [] => .ok r
  | word :: rest =>
      match word.toList with
      | ['-'] => read { r with operands := r.operands ++ [word] } rest
      | ['-', '-'] => .ok { r with operands := r.operands ++ rest }
      | ['-', c] =>
          if c = 'c' ∨ c = 'n' then
            match rest with
            | [] => .error { reason := s!"option requires an argument -- '{String.ofList [c]}'" }
            | text :: rest => (r.withCount (c == 'c') text).bind (read · rest)
          else if c.isDigit then (r.withCount false (String.ofList [c])).bind (read · rest)
          else .error { reason := Work.unknownFlag word }
      | '-' :: c :: cs =>
          if c = 'c' ∨ c = 'n' then
            (r.withCount (c == 'c') (String.ofList cs)).bind (read · rest)
          else if c.isDigit then (r.withCount false (String.ofList (c :: cs))).bind (read · rest)
          else if c = '-' then .error { reason := Work.unknownFlag word }
          else .error { reason := Work.unknownFlag (String.ofList ['-', c]) }
      | _ => read { r with operands := r.operands ++ [word] } rest

def take (r : HeadRequest) (bs : Bytes) : Bytes :=
  let keep := fun size => if r.fromEnd then size - r.count else r.count
  if r.bytes then bs.take (keep bs.length)
  else
    let ends := bs.count 10 + (if bs.getLast? == some 10 || bs.isEmpty then 0 else 1)
    let lines := ((byteLines bs).take (keep ends)).flatMap (· ++ [10])
    lines.take bs.length

end HeadRequest

/-- Puts back what `head` did not need of the input. Lines are found by looking ahead, so a pipe
loses what stands behind them. -/
def giveBack (r : HeadRequest) (bs : Bytes) : Work Unit := do
  let rest := bs.drop (r.take bs).length
  match (← get).input with
  | .file _ => Work.unread rest
  | _ => if r.bytes && !r.fromEnd then Work.unread rest

def headTitle (several first : Bool) (shown : String) : Bytes :=
  if several then Utf8.encode ((if first then "" else "\n") ++ s!"==> {shown} <==\n") else []

/-- Prints the first part of operands; `first` tells whether nothing has been printed yet. The code
tells whether all of them could be read. -/
def headAll (r : HeadRequest) (first : Bool) : List String → Work Nat
  | [] => return 0
  | operand :: rest => do
      let shown := if operand = "-" then "standard input" else operand
      let title := headTitle (1 < r.operands.length) first shown
      match ← Work.readOperand operand with
      | .ok bs =>
          if operand = "-" then giveBack r bs
          let code ← Work.finish (title ++ r.take bs) 0
          if code ≠ 0 then throw (.code code)
          headAll r false rest
      | .error .isDirectory =>
          let _ ← Work.write title
          Work.report s!"error reading {Quoted.always shown}: {Fault.isDirectory.describe}"
          let _ ← headAll r false rest
          return 1
      | .error fault =>
          Work.report s!"cannot open {Quoted.always shown} for reading: {fault.describe}"
          let _ ← headAll r first rest
          return 1

def head : Program := fun args => do
  match HeadRequest.read {} args with
  | .error refusal =>
      if refusal.hint then Work.refuse refusal.reason 1
      else
        Work.report refusal.reason
        return 1
  | .ok r => headAll r true (operandsOrInput r.operands)

/-! ## `wc` -/

/-- What `wc` counts. -/
inductive Count where
  | lines
  | words
  | bytes
  deriving DecidableEq, Repr

namespace Count

def runs (bs : Bytes) : Nat :=
  let blank := fun (b : UInt8) => b == 32 || (9 ≤ b && b ≤ 13)
  (bs.foldl (fun (n, inside) b =>
    if blank b then (n, false) else (if inside then n else n + 1, true)) (0, false)).1

def of (bs : Bytes) : Count → Nat
  | .lines => bs.count 10
  | .words => runs bs
  | .bytes => bs.length

def ofFlags (flags : List String) : List Count :=
  let asked := [("-l", lines), ("-w", words), ("-c", bytes)].filter fun p => flags.contains p.1
  if asked.isEmpty then [lines, words, bytes] else asked.map Prod.snd

end Count

/-- The number of characters that a count has at least beside an operand that is no plain file. -/
def wideCount : Nat := 7

/-- The size of a plain file that an operand stands for, or nothing if it is something else. -/
def plainSize? (operand : String) : Work (Option (Option Nat)) := do
  let d := (← get).host.disk
  match operand, ← Work.handleOf operand with
  | _, some handle =>
      match d.get? handle.route with
      | some ⟨.file content, _, _⟩ => return some (some content.size)
      | some _ => return some none
      | none => return none
  | "-", none => return some none
  | _, none => return none

/-- The number of characters that each count is padded to: enough for all plain files together. A
single count of a single operand is not padded. -/
def countWidth (counts : List Count) (operands : List String) : Work Nat := do
  if operands.length ≤ 1 && counts.length ≤ 1 then return 1
  let sizes := (← operands.mapM plainSize?).filterMap id
  let total := sizes.foldl (fun n size => n + size.getD 0) 0
  let least := if sizes.any Option.isNone then wideCount else 1
  return max least total.repr.length

def countLine (width : Nat) (numbers : List Nat) (name : Option String) : String :=
  let padded := numbers.map fun n =>
    String.ofList (List.replicate (width - n.repr.length) ' ') ++ n.repr
  let shown := name.elim "" fun n =>
    " " ++ if n.toList.contains '\n' then Quoted.name n else n
  " ".intercalate padded ++ shown ++ "\n"

/-- Counts bytes, lines or words of its operands or of the input, and all together if there are
several operands. -/
def wc : Program := withOptions ["-c", "-l", "-w"] 1 fun options => do
  let counts := Count.ofFlags options.flags
  let operands := operandsOrInput options.operands
  let width ← countWidth counts operands
  let nameOf := fun operand => if options.operands.isEmpty then none else some operand
  let mut code := 0
  let mut totals := counts.map fun _ => 0
  for operand in operands do
    if operand.isEmpty then
      Work.report "invalid zero-length file name"
      code := 1
    else
      let result ← Work.readOperand operand
      match result with
      | .error fault =>
          let shown := Quoted.name ((nameOf operand).getD "standard input")
          Work.report s!"{shown}: {fault.describe}"
          code := 1
      | .ok _ => pure ()
      let counted := match result with
        | .ok bs => some bs
        | .error .isDirectory => some []
        | .error _ => none
      match counted with
      | none => pure ()
      | some bs =>
          let numbers := counts.map (Count.of bs)
          totals := totals.zipWith (· + ·) numbers
          if (← Work.finish (Utf8.encode (countLine width numbers (nameOf operand))) 0) ≠ 0 then
            throw (.code 1)
  if 1 < operands.length then
    if (← Work.finish (Utf8.encode (countLine width totals (some "total"))) 0) ≠ 0 then
      throw (.code 1)
  return code

end Program
end LineShell
