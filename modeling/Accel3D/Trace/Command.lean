/-
The commands of a trace, and what they do to a chip.
-/
import Accel3D.Chip.Call

namespace Accel3D

/-- a command of a trace; register offsets hold the chip select bits -/
inductive TraceCommand where
  | register (offset data : UInt32)
  | texture (offset data : UInt32)
  | linear (offset data byteMask : UInt32)
  | retrace (count : UInt32)
  | flush
deriving DecidableEq, Repr, Inhabited

namespace Chip

/-- `n` vertical retraces, each begun and ended -/
def retraces : Nat → Chip → Chip
  | 0, c => c
  | n + 1, c => retraces n c.retrace.endRetrace

/-- one command carried out -/
def obey (c : Chip) : TraceCommand → Chip
  | .register offset data => c.writeRegister offset data
  | .texture offset data => c.writeTexture offset data
  | .linear offset data byteMask => c.writeLinear offset data byteMask
  | .retrace count => retraces count.toNat c
  | .flush => c.flush

/-- the commands in order; at the end no write waits -/
def replay (c : Chip) (commands : List TraceCommand) : Chip := (commands.foldl obey c).flush

end Chip
end Accel3D
