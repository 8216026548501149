import LineShell.Duration
import LineShell.Host

/-!
# Programs — what the shell starts and does not know

A command that is no builtin is a program of the system. What programs do is not for the shell to
say: which of them are installed, how they are found and what they make of their words is a
parameter. The shell hands a program its words, variables, input and outputs, and takes over what it
leaves behind.

- `Launch`    : a program to be started
- `Feed`      : where its input comes from
- `Departure` : what it leaves behind
- `Programs`  : what becomes of a launch, for each time that a program is started
- `Programs.Repeats` : that the time makes no difference
- `Programs.Refuses` : that a program cannot be started
-/

namespace LineShell

/-! ## Before -/

/-- Where the input of a program comes from. -/
inductive Feed where
  /-- The input of the process that runs the session. -/
  | inherited
  /-- These bytes, and then nothing. -/
  | bytes (bs : Bytes)
  /-- An open file. -/
  | file (handle : Handle)
  deriving DecidableEq, Repr

/-- A program to be started. -/
structure Launch where
  name : String
  args : List String
  /-- The names and values of the variables that it is handed. -/
  values : List (String × String)
  /-- The directory that it starts in. -/
  cwd : String
  /-- How long it may run. -/
  limit : Option Duration
  deriving DecidableEq, Repr

/-- Why a program cannot be started. -/
inductive StartFault where
  /-- The system refuses, for a numbered reason. -/
  | os (code : Int)
  /-- One of its texts holds a NUL character. -/
  | nul
  deriving DecidableEq, Repr

def StartFault.toFault : StartFault → Fault
  | os code => .os code
  | nul => .nulInProgram

/-! ## After -/

/-- How a program ended. -/
inductive Ending where
  | code (n : Nat)
  | signal (n : Nat)
  /-- It was stopped because it took too long. -/
  | overtime
  deriving DecidableEq, Repr

/-- What a program did to one of its outputs. -/
structure Written where
  /-- The bytes that it wrote, if it got a pipe. -/
  bytes : Bytes := []
  /-- Where the next byte goes, if it got a file. -/
  position : Nat := 0
  deriving DecidableEq, Repr

/-- What a program leaves behind. -/
structure Departure where
  ending : Ending
  disk : Disk
  /-- What is left of the input of the process that runs the session. -/
  stdin : Bytes
  stdout : Outlet
  stderr : Outlet
  out : Written := {}
  err : Written := {}
  /-- The reason that handing it its input ended in, if it did not take all of it. -/
  unread : Option Int := none

/-- What surrounds the session once a program has ended. -/
def Host.after (h : Host) (left : Departure) : Host :=
  { h with disk := left.disk, stdin := left.stdin, stdout := left.stdout, stderr := left.stderr }

/-- A sink once a program has written to it, or to a pipe in its place. -/
def Sink.after (sink : Sink) (written : Written) : Sink :=
  match sink with
  | .buffer bytes => .buffer (bytes ++ written.bytes)
  | .file handle => .file { handle with position := written.position }
  | _ => sink

/-! ## Behaviour -/

/-- The programs of a system. Nothing is assumed of them. -/
structure Programs where
  /-- What becomes of the launch that is the `n`th of a session. The same launch need not end in the
  same way twice: a program may look at the time, at the network, or at nothing that anyone knows
  of. -/
  start (n : Nat) (launch : Launch) (host : Host) (input : Feed) (out err : Sink) :
    Except StartFault Departure

namespace Programs

/-- A system on which no program is found. -/
def bare : Programs where
  start _ _ _ _ _ _ := .error (.os 2)

/-- From the `m`th launch on, programs do what they do from the `n`th on. -/
def Repeats (programs : Programs) (m n : Nat) : Prop :=
  ∀ i, programs.start (m + i) = programs.start (n + i)

/-- A launch on that disk fails for that reason, whenever it is, and whatever the streams are. -/
def Refuses (programs : Programs) (launch : Launch) (disk : Disk) (fault : StartFault) : Prop :=
  ∀ n host input out err, host.disk = disk →
    programs.start n launch host input out err = .error fault

/-- Programs that do the same from two launches on do so now, and from the next two on. -/
theorem Repeats.step {programs : Programs} {m n : Nat} (h : programs.Repeats m n) :
    programs.start m = programs.start n ∧ programs.Repeats (m + 1) (n + 1) := by
  refine ⟨h 0, fun i => ?_⟩
  rw [Nat.add_assoc, Nat.add_assoc]
  exact h (1 + i)

end Programs

end LineShell
