/-
The program: a replay from files to files. It leaves with 1 after a failure, and with 2 when its arguments are wrong.
-/
import Accel3D.Replay.CommandLine

namespace Accel3D.Program

/-- the text of a file, if it can be read and is one -/
def readText (path : String) : IO (Option String) := do
  try
    return String.fromUTF8? (← IO.FS.readBinFile path)
  catch _ => return none

/-- whether a file could be written -/
def writeBytes (path : String) (bytes : ByteArray) : IO Bool := do
  try
    IO.FS.writeBinFile path bytes
    return true
  catch _ => return false

end Accel3D.Program

open Accel3D in
/-- the program's entry -/
def main (arguments : List String) : IO UInt32 := do
  match CommandLine.read arguments with
  | .error fault =>
    IO.eprintln ("error: " ++ fault.message)
    return 2
  | .ok request =>
    match ← Replay.run ⟨Program.readText, Program.writeBytes⟩ IO.eprintln request with
    | .ok () => return 0
    | .error e =>
      IO.eprintln (CommandLine.showError e)
      return 1
