/-
What a chip is made of: its revision, its memories and its texture units.
-/
import Accel3D.Revision

namespace Accel3D

structure ChipConfig where
  revision : Revision
  frameMegabytes : UInt32
  textureMegabytes : UInt32
  textureUnits : UInt64
  deferWrites : Bool
deriving DecidableEq, Repr, Inhabited

/-- why there is no chip of a configuration -/
inductive ConfigError where
  | frameMemory (megabytes : UInt32)
  | textureMemory (megabytes : UInt32)
  | textureUnits (count : UInt64)
deriving DecidableEq, Repr, Inhabited

namespace ConfigError

def message : ConfigError → String
  | frameMemory mb => "Frame buffer memory must be a power of two from 1 to 16 MB, was " ++ toString mb.toNat ++ " MB"
  | textureMemory mb => "Texture memory must be a power of two from 1 to 16 MB, was " ++ toString mb.toNat ++ " MB"
  | textureUnits n => "TMU count must be at most 2, was " ++ toString n.toNat

end ConfigError

namespace ChipConfig

/-- the configuration of a chip that nothing is said about -/
def standard : ChipConfig := ⟨.voodoo2, 4, 4, 2, false⟩

/-- 1, 2, 4, 8 or 16 megabytes -/
def isMemorySize (megabytes : UInt32) : Bool := [1, 2, 4, 8, 16].contains megabytes

/-- the first fault of a configuration -/
def validate (c : ChipConfig) : Except ConfigError Unit :=
  if !isMemorySize c.frameMegabytes then .error (.frameMemory c.frameMegabytes)
  else if !isMemorySize c.textureMegabytes then .error (.textureMemory c.textureMegabytes)
  else if 2 < c.textureUnits then .error (.textureUnits c.textureUnits)
  else .ok ()

/-- base-2 logarithm of the bytes in a number of megabytes -/
def logBytes (megabytes : UInt32) : Nat := 20 + megabytes.toNat.log2

end ChipConfig
end Accel3D
