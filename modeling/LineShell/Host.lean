import LineShell.Disk.Handle

/-!
# Host — what surrounds a session

A session works on a disk and on the three streams of its process. Output streams take bytes; that a
write to one of them fails is part of the model, as a plan of the writes to come.

- `Outlet` : an output stream of the process
- `Host`   : the disk, the streams and the home directory of the process
- `Sink`   : where the bytes of a stage go
-/

namespace LineShell

/-! ## Streams of the process -/

/-- An output stream of the process. -/
structure Outlet where
  /-- Whether it is a terminal. -/
  terminal : Bool := false
  /-- All bytes that it has taken. -/
  written : Bytes := []
  /-- For each write to come, the fault that it ends in, if any. Writes beyond the plan work. -/
  plan : List (Option Fault) := []
  deriving DecidableEq, Repr

def Outlet.write (o : Outlet) (bs : Bytes) : Outlet × Except Fault Unit :=
  match o.plan with
  | some fault :: plan => ({ o with plan }, .error fault)
  | none :: plan => ({ o with plan, written := o.written ++ bs }, .ok ())
  | [] => ({ o with written := o.written ++ bs }, .ok ())

/-- What surrounds a session. -/
structure Host where
  disk : Disk := {}
  /-- What is left to read on the input of the process. -/
  stdin : Bytes := []
  stdout : Outlet := {}
  stderr : Outlet := {}
  /-- Whether the process lets a terminal show colors. -/
  colors : Bool := true
  /-- The home directory of the process, used if the session names none. -/
  home : Option String := none

/-! ## Sinks -/

/-- Where the bytes of a stage go. -/
inductive Sink where
  /-- To the output of the process. -/
  | stdout
  /-- To the error output of the process. -/
  | stderr
  /-- Into memory: a pipe, or output that is captured. -/
  | buffer (bytes : Bytes)
  /-- Into an open file. -/
  | file (handle : Handle)
  deriving DecidableEq, Repr

namespace Sink

def memory : Sink := .buffer []

/-- Writes bytes to a sink. -/
def write (s : Sink) (bs : Bytes) (h : Host) : Sink × Host × Except Fault Unit :=
  match s with
  | .stdout =>
      let (o, r) := h.stdout.write bs
      (.stdout, { h with stdout := o }, r)
  | .stderr =>
      let (o, r) := h.stderr.write bs
      (.stderr, { h with stderr := o }, r)
  | .buffer old => (.buffer (old ++ bs), h, .ok ())
  | .file handle =>
      match h.disk.write handle bs with
      | .ok (disk, handle) => (.file handle, { h with disk }, .ok ())
      | .error fault => (.file handle, h, .error fault)

def isTerminal (s : Sink) (h : Host) : Bool :=
  match s with
  | .stdout => h.stdout.terminal
  | .stderr => h.stderr.terminal
  | _ => false

def held : Sink → Bytes
  | .buffer bytes => bytes
  | _ => []

end Sink

end LineShell
