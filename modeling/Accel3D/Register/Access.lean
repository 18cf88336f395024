/-
Access rights of the registers.

A write to a register without the write right is ignored, and a read of one without the read right gives all ones. A
write of a register with the queue right may wait in the write queue. A write-through register is stored in every
chip's register file, whatever chips are selected. Whether a register is pipelined has no effect here; it is listed.
-/
import Accel3D.Revision
import Accel3D.Register.Number

namespace Accel3D

structure Access where
  read : Bool
  write : Bool
  pipelined : Bool
  queued : Bool
  writeThrough : Bool
deriving DecidableEq, Repr, Inhabited

namespace Access

def none : Access := ⟨false, false, false, false, false⟩
def r : Access := ⟨true, false, false, false, false⟩
def w : Access := ⟨false, true, false, false, false⟩
def rw : Access := ⟨true, true, false, false, false⟩
def wt : Access := ⟨false, true, false, false, true⟩
def rwt : Access := ⟨true, true, false, false, true⟩
def wf : Access := ⟨false, true, false, true, false⟩
def rwf : Access := ⟨true, true, false, true, false⟩
def wpf : Access := ⟨false, true, true, true, false⟩
def rwpf : Access := ⟨true, true, true, true, false⟩

/-- where the rights change, by byte offset: each row holds up to the next -/
def rows : Revision → List (Nat × Access)
  | .voodoo1 =>
    [(0x000, r), (0x004, none), (0x008, wpf), (0x084, none), (0x088, wpf), (0x104, rwpf), (0x110, rwf), (0x114, rwpf),
     (0x120, wpf), (0x12C, wf), (0x138, none), (0x140, rwpf), (0x14C, r), (0x160, wf), (0x1E0, none), (0x200, rw),
     (0x204, r), (0x208, rw), (0x220, w), (0x234, none), (0x300, wpf), (0x324, wf), (0x384, none)]
  | .voodoo2 =>
    [(0x000, r), (0x004, rwt), (0x008, wpf), (0x084, none), (0x088, wpf), (0x104, rwpf), (0x110, rwf), (0x114, rwpf),
     (0x120, wpf), (0x12C, wf), (0x13C, wpf), (0x140, rwpf), (0x14C, r), (0x160, wf), (0x1E0, rwt), (0x1FC, none),
     (0x200, rwt), (0x204, r), (0x208, rwt), (0x220, wt), (0x228, wf), (0x22C, wt), (0x240, r), (0x244, rwt),
     (0x250, none), (0x258, r), (0x260, wpf), (0x2A8, none), (0x2C0, rwpf), (0x2DC, none), (0x2E0, rwpf), (0x2F4, none),
     (0x2F8, rwpf), (0x2FC, wpf), (0x324, wf), (0x384, none)]
  | .banshee =>
    [(0x000, r), (0x004, none), (0x008, wpf), (0x084, none), (0x088, wpf), (0x104, rwpf), (0x110, rwf), (0x114, rwpf),
     (0x120, wpf), (0x12C, wf), (0x13C, wpf), (0x140, rwpf), (0x14C, r), (0x160, wf), (0x1E0, none), (0x1EC, rwpf),
     (0x1FC, none), (0x200, rwpf), (0x208, none), (0x24C, wt), (0x250, rwf), (0x258, r), (0x260, wpf), (0x2A8, none),
     (0x300, wpf), (0x324, wf), (0x384, none)]

/-- the rights of a register: those of the last row at or below it -/
def of (revision : Revision) (reg : Reg) : Access :=
  (rows revision).foldl (fun found row => if row.1 ≤ 4 * reg.val then row.2 else found) none

end Access
end Accel3D
