import LineShell.Program

/-!
# Filter — programs from bytes to bytes

`cat`, `tr` and `sort`, on their input or on the files that they are given.
-/

namespace LineShell
namespace Program

/-! ## Lines of bytes -/

def byteLines (bs : Bytes) : List Bytes :=
  let step := fun (done : List Bytes × Bytes) (b : UInt8) =>
    if b = 10 then (done.2.reverse :: done.1, []) else (done.1, b :: done.2)
  let (done, last) := bs.foldl step ([], [])
  (if last.isEmpty then done else last.reverse :: done).reverse

/-! ## Operands -/

def operandsOrInput (operands : List String) : List String :=
  if operands.isEmpty then ["-"] else operands

/-- Sorts out the words of a program. One that has a flag which it does not know does nothing
else. -/
def withOptions (known : List String) (code : Nat) (work : Options → Work Nat) :
    Program := fun args =>
  let options := Options.read known.contains args
  match options.unknown with
  | flag :: _ => Work.refuse (Work.unknownFlag flag) code
  | [] => work options

/-! ## `cat` -/

/-- Whether an operand is the very file that the output goes to, with bytes still to be read. -/
def feedsItself (operand : String) : Work Bool := do
  let c ← get
  match ← Work.handleOf operand, c.output? with
  | some i, some (.file o) =>
      match c.host.disk.get? i.route with
      | some ⟨.file content, _, _⟩ => return i.route == o.route && i.position < content.size
      | _ => return false
  | _, _ => return false

def catOne (operand : String) : Work Bool := do
  let shown := Quoted.name operand
  if ← feedsItself operand then
    Work.report s!"{shown}: input file is output file"
    return false
  match ← Work.readOperand operand with
  | .error fault =>
      Work.report s!"{shown}: {fault.describe}"
      return false
  | .ok bs =>
      match ← Work.write bs with
      | .ok () => return true
      | .error fault =>
          Work.report s!"write error: {fault.describe}"
          throw (.code 1)

def cat : Program := withOptions ["-u"] 1 fun options => do
  let mut code := 0
  for operand in operandsOrInput options.operands do
    if !(← catOne operand) then code := 1
  return code

/-! ## `tr` -/

/-- The bytes of a set; a dash between two characters stands for those between. -/
def setOf : List UInt8 → List UInt8
  | a :: 45 :: b :: rest =>
      (List.range (b.toNat + 1 - a.toNat)).map (fun i => a + UInt8.ofNat i) ++ setOf rest
  | a :: rest => a :: setOf rest
  | [] => []

/-- The counterpart of a byte. The last byte of the second set stands for all that are missing. -/
def replaceByte (source goal : List UInt8) (b : UInt8) : UInt8 :=
  match source.idxOf? b with
  | some i => goal.getD i (goal.getLast?.getD b)
  | none => b

def filterInput (f : Bytes → Bytes) : Work Nat := do
  match ← Work.readInput with
  | .error fault =>
      Work.report s!"read error: {fault.describe}"
      return 1
  | .ok bs => Work.finish (f bs) 0

/-- Replaces bytes of the input, or drops them with `-d`. -/
def tr : Program := withOptions ["-d"] 1 fun options =>
  let bytesOf := fun (set : String) => setOf (Utf8.encode set)
  match options.flags.isEmpty, options.operands with
  | _, [] => Work.refuse "missing operand" 1
  | true, [only] =>
      Work.refuse (s!"missing operand after {Quoted.always only}\n" ++
        "Two strings must be given when translating.") 1
  | true, [source, goal] => filterInput (List.map (replaceByte (bytesOf source) (bytesOf goal)))
  | true, _ :: _ :: extra :: _ => Work.refuse s!"extra operand {Quoted.always extra}" 1
  | false, [set] => filterInput (List.filter fun b => !((bytesOf set).contains b))
  | false, _ :: extra :: _ =>
      Work.refuse (s!"extra operand {Quoted.always extra}\n" ++
        "Only one string may be given when deleting without squeezing repeats.") 1

/-! ## `sort` -/

/-- Ends `sort` because of an operand. -/
def sortFails (action operand : String) (fault : Fault) : Work Unit := do
  Work.report s!"{action}: {Quoted.name operand}: {fault.describe}"
  throw (.code 2)

def checkAll : List String → Work Unit
  | [] => return
  | operand :: rest => do
      if operand ≠ "-" then
        match ← Work.pathOf operand with
        | .error fault => sortFails "cannot read" operand fault
        | .ok path =>
            match (← get).host.disk.stat path with
            | .error fault => sortFails "cannot read" operand fault
            | .ok _ => pure ()
      checkAll rest

def gather : List String → Work (List Bytes)
  | [] => return []
  | operand :: rest => do
      match ← Work.readOperand operand with
      | .error fault =>
          sortFails "read failed" operand fault
          return []
      | .ok bs => return byteLines bs ++ (← gather rest)

/-- Sorts lines by their bytes, in the other direction with `-r`, and once each with `-u`. -/
def sort : Program := withOptions ["-r", "-u"] 2 fun options => do
  let operands := operandsOrInput options.operands
  checkAll operands
  let lines ← gather operands
  let reverse := options.flags.contains "-r"
  let sorted := lines.mergeSort fun a b => if reverse then !(a < b) else !(b < a)
  let kept := if options.flags.contains "-u" then sorted.eraseDups else sorted
  match ← Work.write (kept.flatMap (· ++ [10])) with
  | .ok () => return 0
  | .error fault =>
      Work.report s!"write failed: 'standard output': {fault.describe}"
      return 2

end Program
end LineShell
