/-
Names of the registers.

A register without a name of its own is called reserved and its byte offset. The parameter registers are named by rule:
a start value, an X step or a Y step of red, green, blue, Z, alpha, S, T or W, as an integer or as a float.
-/
import Accel3D.Revision
import Accel3D.Register.Number

namespace Accel3D.Reg

/-- the digit of a number below 16 -/
def hexDigit (n : Nat) : Char :=
  if n < 10 then Char.ofNat (48 + n) else Char.ofNat (87 + n)

/-- a byte offset as three digits -/
def offsetText (offset : Nat) : String :=
  String.ofList [hexDigit (offset / 256 % 16), hexDigit (offset / 16 % 16), hexDigit (offset % 16)]

def vertexNames (lead : String) : List String :=
  ["Ax", "Ay", "Bx", "By", "Cx", "Cy"].map fun s => lead ++ "vertex" ++ s

/-- start values, X steps and Y steps in register order -/
def parameterNames (lead : String) : List String :=
  let letters := ["R", "G", "B", "Z", "A", "S", "T", "W"]
  letters.map (fun s => lead ++ "start" ++ s) ++ letters.map (fun s => lead ++ "d" ++ s ++ "dX") ++
    letters.map (fun s => lead ++ "d" ++ s ++ "dY")

/-- the twelve registers of a narrow channel table -/
def nccNames (table : String) : List String :=
  ["0", "1", "2", "3", "4", "5", "6", "7", "8", "9", "A", "B"].map fun s => "nccTable" ++ table ++ "." ++ s

/-- the names that all revisions share, by byte offset of the first -/
def sharedNames : List (Nat × List String) :=
  [(0x000, ["status"]),
   (0x008, vertexNames ""),
   (0x020, parameterNames ""),
   (0x080, ["triangleCMD"]),
   (0x088, vertexNames "f"),
   (0x0A0, parameterNames "f"),
   (0x100, ["ftriangleCMD", "fbzColorPath", "fogMode", "alphaMode", "fbzMode", "lfbMode", "clipLeftRight",
            "clipLowYHighY", "nopCMD", "fastfillCMD", "swapbufferCMD", "fogColor", "zaColor", "chromaKey", "chromaRange",
            "userIntrCMD", "stipple", "color0", "color1", "fbiPixelsIn", "fbiChromaFail", "fbiZfuncFail",
            "fbiAfuncFail", "fbiPixelsOut"]),
   (0x160, (List.range 32).map fun i => "fogTable" ++ offsetText (0x160 + 4 * i)),
   (0x258, ["fbiSwapHistory", "fbiTrianglesOut", "sSetupMode", "sVx", "sVy", "sARGB", "sRed", "sGreen", "sBlue",
            "sAlpha", "sVz", "sWb", "sWtmu0", "sS/Wtmu0", "sT/Wtmu0", "sWtmu1", "sS/Wtmu1", "sT/Wtmu1", "sDrawTriCMD",
            "sBeginTriCMD"]),
   (0x300, ["textureMode", "tLOD", "tDetail", "texBaseAddr", "texBaseAddr_1", "texBaseAddr_2", "texBaseAddr_3_8"]),
   (0x320, ["trexInit1"]),
   (0x324, nccNames "0" ++ nccNames "1")]

/-- the names of one revision only -/
def ownNames : Revision → List (Nat × List String)
  | .banshee =>
    [(0x1EC, ["colBufferAddr", "colBufferStride", "auxBufferAddr", "auxBufferStride"]),
     (0x200, ["clipLeftRight1", "clipTopBottom1"]),
     (0x24C, ["swapPending", "leftOverlayBuf", "rightOverlayBuf"])]
  | _ =>
    [(0x004, ["intrCtrl"]),
     (0x1E0, ["cmdFifoBaseAddr", "cmdFifoBump", "cmdFifoRdPtr", "cmdFifoAMin", "cmdFifoAMax", "cmdFifoDepth",
              "cmdFifoHoles"]),
     (0x200, ["fbiInit4", "vRetrace", "backPorch", "videoDimensions", "fbiInit0", "fbiInit1", "fbiInit2", "fbiInit3",
              "hSync", "vSync", "clutData", "dacData", "maxRgbDelta", "hBorder", "vBorder", "borderColor", "hvRetrace",
              "fbiInit5", "fbiInit6", "fbiInit7"]),
     (0x2C0, ["bltSrcBaseAddr", "bltDstBaseAddr", "bltXYStrides", "bltSrcChromaRange", "bltDstChromaRange", "bltClipX",
              "bltClipY"]),
     (0x2E0, ["bltSrcXY", "bltDstXY", "bltSize", "bltRop", "bltColor"]),
     (0x2F8, ["bltCommand", "bltData"]),
     (0x31C, ["trexInit0"])]

/-- the name at a byte offset in a list of sections -/
def findName (sections : List (Nat × List String)) (offset : Nat) : Option String :=
  sections.findSome? fun (start, names) => if start ≤ offset then names[(offset - start) / 4]? else none

/-- the name that the rules give to a register -/
def nameOf (revision : Revision) (reg : Reg) : String :=
  let offset := 4 * reg.val
  (findName (sharedNames ++ ownNames revision) offset).getD ("reserved" ++ offsetText offset)

/-- names of Voodoo 1 and 2, by register number -/
def voodooNames : Vector String 256 := Vector.ofFn (nameOf .voodoo2)

/-- names of Banshee, by register number -/
def bansheeNames : Vector String 256 := Vector.ofFn (nameOf .banshee)

def names : Revision → Vector String 256
  | .banshee => bansheeNames
  | _ => voodooNames

def name (revision : Revision) (reg : Reg) : String := (names revision).get reg

/-- equal up to the case of ASCII letters -/
def sameName (s t : String) : Bool := s.toList.map Char.toLower == t.toList.map Char.toLower

/-- the first register with a name, in any case of its letters -/
def find? (revision : Revision) (text : String) : Option Reg :=
  (List.finRange 256).find? fun reg => sameName (name revision reg) text

theorem name_eq_nameOf (revision : Revision) (reg : Reg) : name revision reg = nameOf revision reg := by
  cases revision
  · exact Vector.getElem_ofFn (f := nameOf .voodoo2) reg.isLt
  · exact Vector.getElem_ofFn (f := nameOf .voodoo2) reg.isLt
  · exact Vector.getElem_ofFn (f := nameOf .banshee) reg.isLt

end Accel3D.Reg
