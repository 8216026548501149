import LineShell.Disk.Walk

/-!
# Search — finding programs

A name with a slash is a path; any other name is looked for in the directories of the search path. A
file that is not the image of a program is a script: its first line may name the program that runs
it, and that may be a script again.

- `Found`            : a stock program, and what it is to run
- `Search.image`     : the bytes that stand for a stock program on a disk
- `Search.heading?`  : the program that the first line of a script names
- `Search.foundAt`   : what runs the file at a path
- `Search.alongPath` : what runs a name of a search path
-/

namespace LineShell

/-- A stock program and the words that it gets in front of its arguments. -/
structure Found where
  program : String
  /-- The path that was found first. -/
  path : String
  /-- The name of the program that runs a script, as the script gives it. -/
  runner : Option String := none
  words : List String := []
  deriving DecidableEq, Repr

namespace Search

/-! ## The first line of a script -/

def headSize : Nat := 256

def isBlank (b : UInt8) : Bool := b == 32 || b == 9

def isEnd (b : UInt8) : Bool := b == 10 || b == 0

def splitLine (line : Bytes) : Bytes × Option Bytes :=
  let text := line.dropWhile isBlank
  let program := text.takeWhile (!isBlank ·)
  let rest := text.drop program.length
  (program, if rest.isEmpty then none else some (rest.dropWhile isBlank))

def trimEnd (line : Bytes) : Bytes := (line.reverse.dropWhile isBlank).reverse

def ofLine? (line : Bytes) : Option (Bytes × Option Bytes) :=
  let text := trimEnd line
  if text.isEmpty then none else some (splitLine text)

def showsProgram (line : Bytes) : Bool := (line.dropWhile isBlank).any isBlank

/-- The program that the first line of a script names, and the word behind it. If no end of the line
is in sight, at least that of the program has to be, and the line counts up to the last byte. A text
that ends before keeps the blanks at its end, and may leave the program empty. -/
def heading? (head : Bytes) : Option (Bytes × Option Bytes) :=
  match head with
  | 35 :: 33 :: rest =>
      let line := rest.takeWhile (!isEnd ·)
      match rest.drop line.length with
      | 10 :: _ => ofLine? line
      | behind =>
          let room := headSize - 3
          if behind.isEmpty && headSize ≤ head.length && !showsProgram line then none
          else if line.length < room then some (splitLine line)
          else ofLine? (line.take room)
  | _ => none

/-! ## Images -/

def imageHead : Bytes := [0x7f, 69, 76, 70, 32]

def image (program : String) : Bytes := imageHead ++ Utf8.encode program

def ofImage? (bs : Bytes) : Option String :=
  if imageHead.isPrefixOf bs then Utf8.decode? (bs.drop imageHead.length) else none

/-! ## Files -/

def permitted (d : Disk) (path : String) : Except Fault Entry := do
  let e ← d.stat path
  if e.isDirectory || !e.isExecutable then throw .denied else return e

def maxScripts : Nat := 5

/-- What runs the file that stands at a path. `shown` is how the path is written. The program that a
script names is left to `onScript`. -/
def foundWith (d : Disk) (cwd : String) (onScript : String → Except Fault Found) (shown : String) :
    Except Fault Found := do
  let e ← permitted d (Path.join cwd shown)
  match e.node with
  | .file content =>
      let head := content.first headSize
      match ofImage? head, heading? head with
      | some program, _ => return { program, path := shown }
      | none, none => throw .notExecutable
      | none, some (program, word) =>
          let runner := Utf8.decodeLossy program
          let found ← onScript runner
          return {
            program := found.program
            path := shown
            runner := some (found.runner.getD runner)
            words := found.words ++ word.toList.map Utf8.decodeLossy ++ [shown] }
  | _ => throw .denied

/-- What runs the file that stands at a path, with so many scripts left that may run one another. -/
def foundAt (d : Disk) (cwd : String) : Nat → String → Except Fault Found
  | 0 => foundWith d cwd fun runner => do
      let _ ← permitted d (Path.join cwd runner)
      throw .tooManyLinks
  | scripts + 1 => foundWith d cwd (foundAt d cwd scripts)

/-! ## Search paths -/

/-- The fault to remember of two that a search met: that a file may not be executed outweighs the
rest, else the later counts. -/
def remember (before after : Fault) : Fault :=
  if before = .denied then before else after

def directories (path : String) : List String :=
  (Text.splitOn ':' path.toList).map String.ofList

/-- A name in a directory of a search path. An empty directory is the one that we are in. -/
def within (dir name : String) : String :=
  if dir.isEmpty then name else dir ++ "/" ++ name

/-- Tries directories in order, with `look` for what runs the file at a path. One where nothing can
be executed is passed over, and its fault is remembered in case nothing else is found. A file that
does not name its program is run by `sh`. -/
def tryAll (look : String → Except Fault Found) (name : String) (met : Fault) :
    List String → Except Fault Found
  | [] => .error met
  | dir :: rest =>
      let shown := within dir name
      match look shown with
      | .ok found => .ok found
      | .error fault =>
          if fault = .notExecutable then .ok ⟨"sh", shown, some "/bin/sh", [shown]⟩
          else if fault = .denied ∨ fault = .notFound ∨ fault = .notDirectory then
            tryAll look name (remember met fault) rest
          else .error fault

def alongPath (d : Disk) (cwd path name : String) : Except Fault Found :=
  if name.toList.contains '/' then foundAt d cwd maxScripts name
  else if Disk.maxName < name.utf8ByteSize then .error .nameTooLong
  else tryAll (foundAt d cwd maxScripts) name .notFound (directories path)

end Search
end LineShell
