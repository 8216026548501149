import LineShell.CommandLine.Invocation
import LineShell.Disk.System

/-!
# Main — the shell on the command line

The shell works on a disk that it holds in memory, with the stock programs installed. The files that
the command line names, and the dotenv file of the present directory, are put on that disk before it
starts; its input is read to the end, and what it writes goes to the streams of the process.
-/

namespace LineShell
namespace CommandLine

def workRoute : Route := ["work"]

/-- Puts a file of the system on a disk, if it can be read. -/
def putFile (d : Disk) (name : String) : IO Disk := do
  try
    let bytes ← IO.FS.readBinFile name
    let entry : Entry := ⟨.file (.ofBytes bytes.toList), Disk.fileMode, Disk.founded⟩
    return d.install Disk.founded (workRoute ++ Path.fold (Path.components name)) entry
  catch _ => return d

def filesOf (args : List String) : List String :=
  match Arguments.read {} args with
  | .run a => ".env" :: a.script.toList ++ a.envFile.toList
  | _ => []

def takenVariables : List String :=
  ["CLICOLOR", "CLICOLOR_FORCE", "HOME", "LANG", "NO_COLOR", "PATH", "RUST_LOG", "TERM", "USER"]

def processVariables : IO (List (Bytes × Bytes)) :=
  takenVariables.filterMapM fun name => do
    match ← IO.getEnv name with
    | some value => return some (Utf8.encode name, Utf8.encode value)
    | none => return none

/-- Filters that are the name of a level. -/
def levelFilter? : String → Option (Log.Event → Bool)
  | "off" | "error" => some fun _ => false
  | "warn" | "info" => some fun event => event.level == .warn
  | "debug" => some fun event => event.level != .trace
  | "trace" => some fun _ => true
  | _ => none

/-- Records of one line each, all with the same time. -/
def plainSubscriber (now : Moment) : Subscriber where
  filter? := levelFilter?
  clock _ := now
  text moment event :=
    let time := Text.momentText (moment.fdiv 1000000000)
    let fields := String.join (event.fields.map fun field => " " ++ field.1 ++ "=" ++ field.2)
    Utf8.encode s!"{time} {event.level.render} {event.message}{fields}\n"

/-- Reads a stream to its end. -/
partial def readAll (stream : IO.FS.Stream) (done : ByteArray) : IO ByteArray := do
  let block ← stream.read 65536
  if block.isEmpty then return done else readAll stream (done ++ block)

end CommandLine
end LineShell

open LineShell in
/-- Runs the shell with the words on the command line. -/
def main (args : List String) : IO UInt32 := do
  let stdin ← IO.getStdin
  let stdout ← IO.getStdout
  let stderr ← IO.getStderr
  let start := Disk.system.install Disk.founded CommandLine.workRoute
    (Disk.plainDirectory Disk.founded)
  let disk ← (CommandLine.filesOf args).foldlM CommandLine.putFile start
  let input ← CommandLine.readAll stdin .empty
  let host : Host :=
    { disk, stdin := input.toList, stdout := { terminal := ← stdout.isTty }
      stderr := { terminal := ← stderr.isTty } }
  let process : CommandLine.Invocation :=
    { args, env := ← CommandLine.processVariables, cwd := Path.absolute CommandLine.workRoute, host
      programs := .stock, subscriber := CommandLine.plainSubscriber disk.clock
      terminalInput := ← stdin.isTty }
  let (status, after) := process.finish
  stdout.write ⟨after.stdout.written.toArray⟩
  stdout.flush
  stderr.write ⟨after.stderr.written.toArray⟩
  return UInt32.ofNat status
