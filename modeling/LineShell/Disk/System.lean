import LineShell.Program.Launch

/-!
# System — a disk with the stock programs

The disk that sessions are tried out on: the devices, and the image of each stock program in the two
directories where programs are looked for.
-/

namespace LineShell
namespace Disk

def founded : Moment := Moment.ofSeconds 1000000000

/-- A disk with devices and programs, and with a directory to work in. -/
def system : Disk :=
  let device (d : Device) : Entry := ⟨.device d, 0o666, founded⟩
  let programs := Program.names.flatMap fun name =>
    [(["bin", name], name), (["usr", "bin", name], name)]
  let start : Disk :=
    ((Disk.install {} founded ["dev", "null"] (device .null)).install founded ["dev", "full"]
      (device .full)).install founded ["tmp"] (plainDirectory founded)
  programs.foldl
    (fun d p => d.install founded p.1 ⟨.file (.ofBytes (Search.image p.2)), 0o755, founded⟩) start

end Disk
end LineShell
