/-
A replay from files to files.

The configuration is read first, and the default one taken if that fails. Then the chip is made, the trace read and
replayed, what was drawn reported, the image written and, if asked for, the chip saved. The first failure ends the
replay. How files are read and written is left to `Files`.
-/
import Accel3D.Replay.Config
import Accel3D.Replay.Image
import Accel3D.Snapshot.Format
import Accel3D.Trace.Reader

namespace Accel3D

/-- the files of a replay: the trace, and perhaps a configuration, an image path and a save path -/
structure ReplayFiles where
  trace : String
  config : Option String
  image : Option String
  save : Option String
deriving DecidableEq, Repr

/-- why a replay ends early -/
inductive ReplayError where
  | config (cause : ConfigError)
  | traceFile (path : String)
  | trace (cause : TraceError)
  | imageFile (path : String)
  | image (path : String) (cause : MissingBuffer)
  | saveFile (path : String)
deriving DecidableEq, Repr

namespace ReplayError

/-- the failure without its causes -/
def headline : ReplayError → String
  | config cause => cause.message
  | traceFile path => "Error reading trace from '" ++ path ++ "'"
  | trace cause => cause.headline
  | imageFile path => "Error creating '" ++ path ++ "'"
  | image path _ => "Error writing frame to '" ++ path ++ "'"
  | saveFile path => "Error writing save state to '" ++ path ++ "'"

/-- the causes of the failure, outermost first -/
def causes : ReplayError → List String
  | trace cause => cause.cause.causes
  | image _ cause => [cause.message]
  | _ => []

end ReplayError

/-- reading a file as text and writing a file, each of which may fail -/
structure Files (m : Type → Type) where
  read : String → m (Option String)
  write : String → ByteArray → m Bool

namespace Replay

/-- the configuration of a text, or the default one; a path that was asked for replaces the image's -/
def configOf (text : Option String) (image : Option String) : ReplayConfig :=
  let config := (text.bind ReplayConfig.parse?).getD .standard
  match image with
  | some path => { config with image := { config.image with path := path } }
  | none => config

/-- what was drawn, as one line -/
def report (commands : Nat) (c : Chip) : String :=
  let n := c.frame.counters
  let part (count : UInt32) (what : String) : String := toString count.toNat ++ " " ++ what
  "Replayed " ++ toString commands ++ " commands: " ++ ", ".intercalate
    [part c.frame.trianglesOut "triangles", part n.pixelsIn "pixels in", part n.pixelsOut "pixels out",
     part n.chromaFail "chroma fail", part n.depthFail "depth fail", part n.alphaFail "alpha fail"]

variable {m : Type → Type} [Monad m]

/-- the chip after a trace, with the number of its commands -/
def runTrace (files : Files m) (chip : ChipConfig) (path : String) : ExceptT ReplayError m (Chip × Nat) := do
  let c ← match Chip.make chip with
    | .ok c => pure c
    | .error e => throw (.config e)
  let some text ← files.read path | throw (.traceFile path)
  match Trace.read chip.revision text with
  | .ok commands => return (c.replay commands, commands.length)
  | .error e => throw (.trace e)

/-- a file written, or the failure that it stands for -/
def writeOr (files : Files m) (path : String) (bytes : ByteArray) (failure : ReplayError) :
    ExceptT ReplayError m Unit := do
  if !(← files.write path bytes) then throw failure

/-- the image written; without an image the file is left empty -/
def writeImage (files : Files m) (c : Chip) (config : ImageConfig) : ExceptT ReplayError m Unit :=
  match Image.encode c.frame config.buffer.buffer config.width config.height with
  | .ok bytes => writeOr files config.path bytes (.imageFile config.path)
  | .error cause => do
    writeOr files config.path ByteArray.empty (.imageFile config.path)
    throw (.image config.path cause)

/-- the whole replay; `tell` is given the report -/
def run (files : Files m) (tell : String → m Unit) (request : ReplayFiles) : ExceptT ReplayError m Unit := do
  let text ← match request.config with
    | some path => files.read path
    | none => pure none
  let config := configOf text request.image
  let (c, commands) ← runTrace files config.chip request.trace
  tell (report commands c)
  writeImage files c config.image
  match request.save with
  | some path => writeOr files path c.save (.saveFile path)
  | none => pure ()

end Replay
end Accel3D
